import CoSimIO.Serializer.ValueRules

/-! # Trace types with the same file format -/

namespace CoSimIO.Serializer

set_option autoImplicit false

/-- The trace types are equal or those with tags, and numbers have the same text. -/
structure Config.SameFormat (cfg cfg' : Config) : Prop where
  trace : cfg.trace = cfg'.trace ∨ cfg.tracing = true ∧ cfg'.tracing = true
  doubles : cfg.doubles = cfg'.doubles

section Format

variable {cfg cfg' : Config}

theorem Config.SameFormat.symm (h : cfg.SameFormat cfg') : cfg'.SameFormat cfg where
  trace := h.trace.imp Eq.symm And.symm
  doubles := h.doubles.symm

theorem Config.SameFormat.tracing (h : cfg.SameFormat cfg') :
    cfg.tracing = cfg'.tracing := by
  rcases h.trace with hEqual | ⟨hTags, hTags'⟩
  · rw [Config.tracing, Config.tracing, hEqual]
  · rw [hTags, hTags']

theorem Config.SameFormat.binary (h : cfg.SameFormat cfg') :
    cfg.binary = cfg'.binary := by
  rcases h.trace with hEqual | ⟨hTags, hTags'⟩
  · rw [Config.binary, Config.binary, hEqual]
  · rw [binary_of_tracing hTags, binary_of_tracing hTags']

theorem tracePoint_congr (h : cfg.tracing = cfg'.tracing) : tracePoint cfg = tracePoint cfg' := by
  funext tag
  rw [tracePoint, tracePoint, h]

theorem saveItem_congr (h : tracePoint cfg = tracePoint cfg') :
    Serializer.save cfg = Serializer.save cfg' := by
  funext tag item
  rw [Serializer.save, Serializer.save, h]

theorem writeText_congr (h : cfg.doubles = cfg'.doubles) {k : Kind} {v : k.Carrier}
    {text text' : Text} (hText : writeText cfg k v = .ok text)
    (hText' : writeText cfg' k v = .ok text') : text = text' := by
  cases k with
  | string =>
    rw [writeText] at hText hText'
    split at hText
    · cases hText
    split at hText
    · cases hText
    split at hText'
    · cases hText'
    split at hText'
    · cases hText'
    exact Except.ok.inj (hText.symm.trans hText')
  | double =>
    rw [writeText] at hText hText'
    rw [← h] at hText'
    exact Except.ok.inj (hText.symm.trans hText')
  | _ => exact Except.ok.inj (hText.symm.trans hText')

theorem write_congr (h : cfg.SameFormat cfg') {k : Kind} {v : k.Carrier} {text text' : Text}
    (hText : write cfg k v = .ok text) (hText' : write cfg' k v = .ok text') : text = text' := by
  rw [write, h.binary] at hText
  rw [write] at hText'
  split at hText
  · next hMode =>
    rw [if_pos hMode] at hText'
    exact Except.ok.inj (hText.symm.trans hText')
  · next hMode =>
    rw [if_neg hMode] at hText'
    exact writeText_congr h.doubles hText hText'

/-- Two processes that write at all write the same. -/
theorem writeAll_congr (h : cfg.SameFormat cfg') {items : List Item} {text text' : Text}
    (hText : writeAll cfg items = .ok text) (hText' : writeAll cfg' items = .ok text') :
    text = text' := by
  induction items generalizing text text' with
  | nil => exact Except.ok.inj (hText.symm.trans hText')
  | cons item items ih =>
    obtain ⟨first, rest, hFirst, hRest, rfl⟩ := writeAll_cons_ok hText
    obtain ⟨first', rest', hFirst', hRest', rfl⟩ := writeAll_cons_ok hText'
    rw [write_congr h hFirst hFirst', ih hRest hRest']

mutual

theorem Shape.save_congr (h : cfg.SameFormat cfg') (floats : FloatText) : (a : Shape) →
    ∀ (tag : Text) (v : a.Carrier), a.save cfg floats tag v = a.save cfg' floats tag v
  | .scalar s, tag, v => by
    have hItem : s.item cfg floats v = s.item cfg' floats v := by
      cases s with
      | float => rw [Scalar.item, Scalar.item, h.binary]
      | _ => rfl
    rw [Shape.save, Shape.save, saveItem_congr (tracePoint_congr h.tracing), hItem]
  | .pair a b, tag, v => by
    rw [Shape.save, Shape.save, tracePoint_congr h.tracing, a.save_congr h, b.save_congr h]
  | .array _ a, tag, v => by
    rw [Shape.save, Shape.save, tracePoint_congr h.tracing, funext (a.save_congr h floats "E".toList)]
  | .vector a, tag, v => by
    rw [Shape.save, Shape.save, saveSize, saveSize, tracePoint_congr h.tracing,
      saveItem_congr (tracePoint_congr h.tracing), funext (a.save_congr h floats "E".toList)]
  | .map a b, tag, v => by
    rw [Shape.save, Shape.save, saveSize, saveSize, tracePoint_congr h.tracing,
      saveItem_congr (tracePoint_congr h.tracing), funext (a.save_congr h floats "First".toList),
      funext (b.save_congr h floats "Second".toList)]
  | .object members, tag, v => by
    rw [Shape.save, Shape.save, tracePoint_congr h.tracing, members.save_congr h]

theorem Members.save_congr (h : cfg.SameFormat cfg') (floats : FloatText) :
    (members : Members) → ∀ v : members.Carrier,
      members.save cfg floats v = members.save cfg' floats v
  | .nil, _ => rfl
  | .cons tag a rest, v => by
    rw [Members.save, Members.save, a.save_congr h, rest.save_congr h]

end

end Format

end CoSimIO.Serializer
