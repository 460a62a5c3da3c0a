import Mathlib.Data.List.Count
import Mathlib.Logic.Function.Basic
import Mathlib.Tactic.Common

/-! # Slots that hold one message

Agents put messages into slots and take them out. A slot holds one message at a time, and it has one
agent that fills it and one that empties it. When the actions of all agents can be done in some
order, then every other order leads to the end as well.
-/

namespace Slots

set_option autoImplicit false

variable {Key Message Agent : Type}

inductive Action (Key Message : Type)
  | put (key : Key) (message : Message)
  | take (key : Key)

def takenKeys : List (Action Key Message) → List Key
  | [] => []
  | .put _ _ :: actions => takenKeys actions
  | .take key :: actions => key :: takenKeys actions

variable [DecidableEq Key]

def puts (key : Key) : List (Action Key Message) → List Message
  | [] => []
  | .put key' message :: actions =>
    if key' = key then message :: puts key actions else puts key actions
  | .take _ :: actions => puts key actions

def takes (key : Key) : List (Action Key Message) → Nat
  | [] => 0
  | .put _ _ :: actions => takes key actions
  | .take key' :: actions => if key' = key then takes key actions + 1 else takes key actions

/-- What was taken out of one slot -/
def taken (key : Key) : List (Key × Message) → List Message
  | [] => []
  | (key', message) :: received =>
    if key' = key then message :: taken key received else taken key received

/-- What the actions take, when each slot hands out its messages in order. -/
def deliveries [Inhabited Message] (messages : Key → List Message) :
    List (Action Key Message) → List (Key × Message)
  | [] => []
  | .put _ _ :: actions => deliveries messages actions
  | .take key :: actions => (key, (messages key).headD default) ::
    deliveries (Function.update messages key (messages key).tail) actions

variable [DecidableEq Agent]

/-- The agents can act in this order, which leaves all slots empty. -/
def Orderly (filled : List Key) (programs : Agent → List (Action Key Message)) :
    List Agent → Prop
  | [] => filled = [] ∧ ∀ a, programs a = []
  | a :: order => match programs a with
    | [] => False
    | .put key _ :: rest =>
      key ∉ filled ∧ Orderly (key :: filled) (Function.update programs a rest) order
    | .take key :: rest =>
      key ∈ filled ∧ Orderly (filled.erase key) (Function.update programs a rest) order

/-- One agent fills the slot, and one empties it. -/
structure OneWay (sender receiver : Key → Agent) (programs : Agent → List (Action Key Message)) :
    Prop where
  put : ∀ a key message, .put key message ∈ programs a → a = sender key
  take : ∀ a key, .take key ∈ programs a → a = receiver key

/-- The messages in the slot after so many actions of each agent -/
def level (sender receiver : Key → Agent) (filled : List Key)
    (programs : Agent → List (Action Key Message)) (done : Agent → Nat) (key : Key) : Int :=
  filled.count key + (puts key ((programs (sender key)).take (done (sender key)))).length -
    takes key ((programs (receiver key)).take (done (receiver key)))

/-- The slot of the action is empty, or filled, as the action needs it. -/
def Enabled (level : Key → Int) : Action Key Message → Prop
  | .put key _ => level key ≤ 0
  | .take key => 0 < level key

section Orders

variable {sender receiver : Key → Agent} {filled : List Key}
  {programs : Agent → List (Action Key Message)} {order : List Agent} {a : Agent}
  {action : Action Key Message} {rest : List (Action Key Message)} {done : Agent → Nat}

omit [DecidableEq Key] in
theorem OneWay.tail (h : OneWay sender receiver programs) (hProgram : programs a = action :: rest) :
    OneWay sender receiver (Function.update programs a rest) := by
  have hMem : ∀ b other, other ∈ Function.update programs a rest b → other ∈ programs b := by
    intro b other hOther
    by_cases hb : b = a
    · subst hb
      rw [Function.update_self] at hOther
      rw [hProgram]
      exact List.mem_cons_of_mem _ hOther
    · rwa [Function.update_of_ne hb] at hOther
  exact ⟨fun b key message hOther => h.put b key message (hMem b _ hOther),
    fun b key hOther => h.take b key (hMem b _ hOther)⟩

omit [DecidableEq Key] in
/-- The first action and the others, as far as they are done -/
theorem take_update (hProgram : programs a = action :: rest) (hDone : done a ≠ 0) (b : Agent) :
    (programs b).take (done b) = (if b = a then [action] else []) ++
      (Function.update programs a rest b).take (Function.update done a (done a - 1) b) := by
  by_cases hb : b = a
  · subst hb
    obtain ⟨n, hn⟩ := Nat.exists_eq_succ_of_ne_zero hDone
    rw [if_pos rfl, Function.update_self, Function.update_self, hProgram, hn]
    rfl
  · rw [if_neg hb, Function.update_of_ne hb, Function.update_of_ne hb]
    rfl

omit [DecidableEq Key] in
theorem drop_update (hProgram : programs a = action :: rest) (hDone : done a ≠ 0) (b : Agent) :
    (programs b).drop (done b) =
      (Function.update programs a rest b).drop (Function.update done a (done a - 1) b) := by
  by_cases hb : b = a
  · subst hb
    obtain ⟨n, hn⟩ := Nat.exists_eq_succ_of_ne_zero hDone
    rw [Function.update_self, Function.update_self, hProgram, hn]
    rfl
  · rw [Function.update_of_ne hb, Function.update_of_ne hb]

omit [DecidableEq Agent] in
theorem puts_append (key : Key) (first second : List (Action Key Message)) :
    puts key (first ++ second) = puts key first ++ puts key second := by
  induction first with
  | nil => rfl
  | cons action first ih =>
    cases action with
    | put key' message =>
      simp only [List.cons_append, puts, ih]
      split
      · rfl
      · rfl
    | take key' => exact ih

omit [DecidableEq Agent] in
theorem takes_append (key : Key) (first second : List (Action Key Message)) :
    takes key (first ++ second) = takes key first + takes key second := by
  induction first with
  | nil => exact (Nat.zero_add _).symm
  | cons action first ih =>
    cases action with
    | put key' message => exact ih
    | take key' =>
      simp only [List.cons_append, takes, ih]
      split
      · omega
      · rfl

omit [DecidableEq Agent] in
theorem level_nil (key : Key) : level sender receiver [] programs done key =
    (puts key ((programs (sender key)).take (done (sender key)))).length -
      takes key ((programs (receiver key)).take (done (receiver key))) := by
  rw [level, List.count_nil]
  omega

theorem level_put {key : Key} {message : Message} (h : OneWay sender receiver programs)
    (hProgram : programs a = .put key message :: rest) (hDone : done a ≠ 0) (key' : Key) :
    level sender receiver (key :: filled) (Function.update programs a rest)
        (Function.update done a (done a - 1)) key' =
      level sender receiver filled programs done key' := by
  have hSender : a = sender key := h.put a key message (hProgram ▸ List.mem_cons_self)
  simp only [level, take_update hProgram hDone, puts_append, takes_append, List.length_append]
  have hTakes : takes key' (if receiver key' = a then [.put key message] else []) = 0 := by
    split
    · rfl
    · rfl
  rw [hTakes]
  by_cases hKey : key = key'
  · subst hKey
    rw [if_pos hSender.symm, puts, if_pos rfl, List.count_cons_self, List.length_cons]
    simp only [puts, List.length_nil]
    omega
  · have hPuts : puts key' (if sender key' = a then [.put key message] else []) = [] := by
      split
      · rw [puts, if_neg hKey]
        rfl
      · rfl
    rw [hPuts, List.count_cons_of_ne hKey, List.length_nil]
    omega

theorem level_take {key : Key} (h : OneWay sender receiver programs)
    (hProgram : programs a = .take key :: rest) (hDone : done a ≠ 0) (hKey : key ∈ filled)
    (key' : Key) :
    level sender receiver (filled.erase key) (Function.update programs a rest)
        (Function.update done a (done a - 1)) key' =
      level sender receiver filled programs done key' := by
  have hReceiver : a = receiver key := h.take a key (hProgram ▸ List.mem_cons_self)
  simp only [level, take_update hProgram hDone, puts_append, takes_append, List.length_append]
  have hPuts : puts key' (if sender key' = a then [.take key] else []) =
      ([] : List Message) := by
    split
    · rfl
    · rfl
  rw [hPuts, List.length_nil]
  by_cases hSame : key = key'
  · subst hSame
    have hPositive : 0 < filled.count key := List.count_pos_iff.mpr hKey
    rw [if_pos hReceiver.symm, takes, if_pos rfl, takes, List.count_erase_self]
    omega
  · have hTakes : takes key' (if receiver key' = a then [.take key] else []
        : List (Action Key Message)) = 0 := by
      split
      · rw [takes, if_neg hSame]
        rfl
      · rfl
    rw [hTakes, List.count_erase_of_ne (Ne.symm hSame)]
    omega

/-- However far the agents have come, one of them can go on. -/
theorem exists_enabled (h : OneWay sender receiver programs)
    (hOrder : Orderly filled programs order) (done : Agent → Nat) :
    (∀ a, (programs a).drop (done a) = []) ∨
      ∃ a action rest, (programs a).drop (done a) = action :: rest ∧
        Enabled (level sender receiver filled programs done) action := by
  induction order generalizing filled programs done with
  | nil =>
    refine .inl fun a => ?_
    rw [hOrder.2 a, List.drop_nil]
  | cons a order ih =>
    rw [Orderly] at hOrder
    cases hProgram : programs a with
    | nil =>
      rw [hProgram] at hOrder
      exact hOrder.elim
    | cons action rest =>
      rw [hProgram] at hOrder
      by_cases hDone : done a = 0
      · refine .inr ⟨a, action, rest, by rw [hDone, hProgram]; rfl, ?_⟩
        cases action with
        | put key message =>
          have hSender : a = sender key := h.put a key message (hProgram ▸ List.mem_cons_self)
          have hCount : filled.count key = 0 := List.count_eq_zero.mpr hOrder.1
          rw [Enabled, level, ← hSender, hDone, List.take_zero, hCount]
          simp only [puts, List.length_nil]
          omega
        | take key =>
          have hReceiver : a = receiver key := h.take a key (hProgram ▸ List.mem_cons_self)
          have hCount : 0 < filled.count key := List.count_pos_iff.mpr hOrder.1
          rw [Enabled, level, ← hReceiver, hDone, List.take_zero]
          simp only [takes]
          omega
      · simp only [drop_update hProgram hDone]
        cases action with
        | put key message =>
          have hLevel : level sender receiver (key :: filled) (Function.update programs a rest)
              (Function.update done a (done a - 1)) = level sender receiver filled programs done :=
            funext (level_put h hProgram hDone)
          rw [← hLevel]
          exact ih (h.tail hProgram) hOrder.2 _
        | take key =>
          have hLevel : level sender receiver (filled.erase key) (Function.update programs a rest)
              (Function.update done a (done a - 1)) = level sender receiver filled programs done :=
            funext (level_take h hProgram hDone hOrder.1)
          rw [← hLevel]
          exact ih (h.tail hProgram) hOrder.2 _

/-- In the end every message has been taken. -/
theorem level_end (h : OneWay sender receiver programs) (hOrder : Orderly filled programs order)
    (hDone : ∀ a, (programs a).length ≤ done a) (key : Key) :
    level sender receiver filled programs done key = 0 := by
  induction order generalizing filled programs done with
  | nil =>
    rw [level, hOrder.1, hOrder.2, hOrder.2]
    simp [puts, takes]
  | cons a order ih =>
    rw [Orderly] at hOrder
    cases hProgram : programs a with
    | nil =>
      rw [hProgram] at hOrder
      exact hOrder.elim
    | cons action rest =>
      rw [hProgram] at hOrder
      have hOwn := hDone a
      rw [hProgram, List.length_cons] at hOwn
      have hLater : ∀ b, (Function.update programs a rest b).length ≤
          Function.update done a (done a - 1) b := by
        intro b
        by_cases hb : b = a
        · subst hb
          rw [Function.update_self, Function.update_self]
          omega
        · rw [Function.update_of_ne hb, Function.update_of_ne hb]
          exact hDone b
      cases action with
      | put key' message =>
        rw [← level_put h hProgram (by omega) key]
        exact ih (h.tail hProgram) hOrder.2 hLater
      | take key' =>
        rw [← level_take h hProgram (by omega) hOrder.1 key]
        exact ih (h.tail hProgram) hOrder.2 hLater

end Orders

theorem eq_deliveries [Inhabited Message] {messages : Key → List Message}
    {received : List (Key × Message)} {actions : List (Action Key Message)}
    (hKeys : received.map Prod.fst = takenKeys actions)
    (hTaken : ∀ key, taken key received <+: messages key) : received = deliveries messages actions := by
  induction actions generalizing received messages with
  | nil => exact List.map_eq_nil_iff.mp hKeys
  | cons action actions ih =>
    cases action with
    | put key message => exact ih hKeys hTaken
    | take key =>
      cases received with
      | nil => cases hKeys
      | cons first received =>
        obtain ⟨key', message⟩ := first
        obtain ⟨hFirst, hLater⟩ := List.cons.inj hKeys
        obtain rfl : key' = key := hFirst
        have hOwn := hTaken key'
        rw [taken, if_pos rfl] at hOwn
        obtain ⟨pending, hPending⟩ := hOwn
        rw [deliveries, ← hPending]
        refine congrArg₂ List.cons rfl (ih hLater fun other => ?_)
        by_cases hOther : other = key'
        · subst hOther
          rw [Function.update_self]
          exact List.prefix_append _ _
        · rw [Function.update_of_ne hOther]
          have hOthers := hTaken other
          rwa [taken, if_neg (Ne.symm hOther)] at hOthers

end Slots
