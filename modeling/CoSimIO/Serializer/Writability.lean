import CoSimIO.Serializer.Pointers

/-! # Savers of which no `write` fails -/

namespace CoSimIO.Serializer

open Restore Restore.Writer

set_option autoImplicit false

variable {cfg : Config} {α : Type} {tag : Text}

/-- A tag of the source code -/
def PlainTag (tag : Text) : Prop := '"' ∉ tag ∧ '\n' ∉ tag

instance : DecidablePred PlainTag := fun _ => inferInstanceAs (Decidable (_ ∧ _))

theorem emits_point (hTag : PlainTag tag) :
    (emit (tracePoint cfg tag) : Saver).Emits (Writable cfg) :=
  emits_emit (writable_tracePoint hTag.1 hTag.2)

theorem emits_save {item : Item} (hTag : PlainTag tag) (hItem : Writable cfg item) :
    (emit (Serializer.save cfg tag item) : Saver).Emits (Writable cfg) := by
  rw [Serializer.save, emit_append]
  exact (emits_point hTag).andThen (emits_emit (List.forall_mem_singleton.mpr hItem))

theorem emits_savePointer {registered : Option Text} {address : BitVec 64} {content : Saver}
    (hTag : PlainTag tag) (hName : ∀ name ∈ registered, Writable cfg ⟨.string, name⟩)
    (hContent : content.Emits (Writable cfg)) :
    (savePointer cfg tag registered address content).Emits (Writable cfg) := by
  have hKind : ∀ k ≠ .string, ∀ v, (emit [⟨k, v⟩] : Saver).Emits (Writable cfg) :=
    fun k hk v => emits_emit (List.forall_mem_singleton.mpr (writable_of_kind hk))
  have hNames : (emit (nameItems registered) : Saver).Emits (Writable cfg) := by
    apply emits_emit
    cases registered with
    | none => nofun
    | some name => exact List.forall_mem_singleton.mpr (hName name rfl)
  have hNew : (saveNew cfg tag registered content).Emits (Writable cfg) :=
    hNames.andThen ((emits_point hTag).andThen hContent)
  refine (hKind .pointerType (by nofun) _).andThen ((hKind .address (by nofun) _).andThen ?_)
  intro saved item hItem
  dsimp only at hItem
  split at hItem
  · nomatch hItem
  · exact hNew _ item hItem

theorem emits_saveVector {save : α → Saver} {elements : List α} (hTag : PlainTag tag)
    (hElements : ∀ element ∈ elements, (save element).Emits (Writable cfg)) :
    (saveVector cfg tag save elements).Emits (Writable cfg) :=
  (emits_point hTag).andThen
    ((emits_save (by decide) (writable_of_kind (by nofun))).andThen (emits_each hElements))

end CoSimIO.Serializer
