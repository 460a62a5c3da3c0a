import CoSimIO.Vtk.Format

/-! # The lines of the file and the keywords in them -/

namespace CoSimIO.Vtk

open Serializer NumberText

set_option autoImplicit false

section Find

variable {pattern line tail : Text}

theorem find_nil (hPattern : pattern ≠ []) : find pattern [] = none := by
  rw [find, List.isEmpty_eq_false_iff.mpr hPattern]
  rfl

theorem isPrefixOf_append (hTail : ∀ c ∈ tail, c ∉ pattern) (line : Text) :
    pattern.isPrefixOf (line ++ tail) = pattern.isPrefixOf line := by
  induction pattern generalizing line with
  | nil => cases line <;> cases tail <;> rfl
  | cons p pattern ih =>
    cases line with
    | nil =>
      cases tail with
      | nil => rfl
      | cons c cs =>
        have hNe : (p == c) = false := by
          rw [beq_eq_false_iff_ne]
          rintro rfl
          exact hTail p List.mem_cons_self List.mem_cons_self
        rw [List.nil_append, List.isPrefixOf_cons_cons, hNe]
        rfl
    | cons c line =>
      have hRest := ih (fun d hd hMem => hTail d hd (List.mem_cons_of_mem p hMem)) line
      rw [List.cons_append, List.isPrefixOf_cons_cons, List.isPrefixOf_cons_cons, hRest]

/-- An occurrence does not reach into characters the pattern does not have. -/
theorem find_append (hPattern : pattern ≠ []) (hTail : ∀ c ∈ tail, c ∉ pattern) :
    find pattern (line ++ tail) = find pattern line := by
  induction line with
  | nil =>
    rw [find_nil hPattern, List.nil_append]
    induction tail with
    | nil => exact find_nil hPattern
    | cons c cs ih =>
      have hPrefix := isPrefixOf_append hTail []
      have hStart : pattern.isPrefixOf [] = false := by
        cases pattern with
        | nil => exact absurd rfl hPattern
        | cons p pattern => rfl
      rw [List.nil_append, hStart] at hPrefix
      rw [find, hPrefix, ih fun d hd => hTail d (List.mem_cons_of_mem c hd)]
      rfl
  | cons c line ih =>
    have hPrefix := isPrefixOf_append hTail (c :: line)
    rw [List.cons_append] at hPrefix ⊢
    rw [find, find, hPrefix, ih]

end Find

section Keywords

/-- No keyword has a character of the text. -/
def Plain (text : Text) : Prop := ∀ c ∈ text, c.isUpper = false ∧ c ≠ '_'

instance (text : Text) : Decidable (Plain text) :=
  List.decidableBAll (fun c : Char => c.isUpper = false ∧ c ≠ '_') text

/-- No keyword is in the line. -/
def Quiet (line : Text) : Prop := ∀ kind : Section, find kind.keyword line = none

variable {line tail : Text}

theorem keyword_ne_nil (kind : Section) : kind.keyword ≠ [] := by
  cases kind <;> decide

theorem keyword_upper (kind : Section) : ∀ c ∈ kind.keyword, c.isUpper = true ∨ c = '_' := by
  have hAll : kind.keyword.all (fun c => c.isUpper || c == '_') = true := by
    cases kind <;> decide
  intro c hc
  simpa using List.all_eq_true.mp hAll c hc

theorem Plain.notMem (h : Plain tail) (kind : Section) : ∀ c ∈ tail, c ∉ kind.keyword := by
  intro c hc hMem
  obtain ⟨hUpper, hScore⟩ := h c hc
  rcases keyword_upper kind c hMem with hLetter | hMark
  · rw [hUpper] at hLetter
    nomatch hLetter
  · exact hScore hMark

theorem find_plain (h : Plain tail) (kind : Section) (line : Text) :
    find kind.keyword (line ++ tail) = find kind.keyword line :=
  find_append (keyword_ne_nil kind) (h.notMem kind)

theorem Quiet.append (hLine : Quiet line) (hTail : Plain tail) : Quiet (line ++ tail) := by
  intro kind
  rw [find_plain hTail]
  exact hLine kind

theorem quiet_nil : Quiet [] := fun kind => find_nil (keyword_ne_nil kind)

theorem Plain.quiet (h : Plain line) : Quiet line := quiet_nil.append h

theorem Plain.append (hLine : Plain line) (hTail : Plain tail) : Plain (line ++ tail) := by
  intro c hc
  exact (List.mem_append.mp hc).elim (hLine c) (hTail c)

theorem plain_of_digits (h : ∀ c ∈ line, c = '-' ∨ c.isDigit = true) : Plain line := by
  intro c hc
  rcases h c hc with rfl | hDigit
  · exact ⟨rfl, by decide⟩
  · constructor
    · cases hUpper : c.isUpper with
      | false => rfl
      | true =>
        have hBounds : c.val ≥ 'A'.val ∧ c.val ≤ 'Z'.val := of_decide_eq_true hUpper
        simp only [Char.isDigit, ge_iff_le, Bool.and_eq_true, decide_eq_true_eq] at hDigit
        exact absurd (UInt32.le_trans hBounds.1 hDigit.2) (by decide)
    · rintro rfl
      exact absurd hDigit (by decide)

theorem plain_integerText (n : Int) : Plain (integerText n) :=
  plain_of_digits fun _ => mem_integerText

theorem numberText_digit {n : Nat} {c : Char} (h : c ∈ numberText n) : c.isDigit = true :=
  Nat.isDigit_of_mem_toDigits (by decide) (by decide) h

theorem plain_numberText (n : Nat) : Plain (numberText n) :=
  plain_of_digits fun _ hc => .inr (numberText_digit hc)

theorem newline_notMem_of_digits (h : ∀ c ∈ line, c = '-' ∨ c.isDigit = true) : '\n' ∉ line := by
  intro hMem
  rcases h '\n' hMem with hMinus | hDigit
  · nomatch hMinus
  · nomatch hDigit

theorem newline_notMem_numberText (n : Nat) : '\n' ∉ numberText n :=
  newline_notMem_of_digits fun _ hc => .inr (numberText_digit hc)

theorem newline_notMem_integerText (n : Int) : '\n' ∉ integerText n :=
  newline_notMem_of_digits fun _ => mem_integerText

end Keywords

end CoSimIO.Vtk
