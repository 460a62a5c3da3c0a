import CoSimIO.ModelPart.Consistency

/-! # The loops of `CreateNewNodes`, `CreateNewGhostNodes` and `CreateNewElements`

The loops with their counters, and that they are the calls for one entity after the other.
There is no result when a container is accessed out of its bounds.
-/

namespace CoSimIO.ModelPart

set_option autoImplicit false

/-- `for (i : indices) body(i)` -/
def forEach (body : Nat → State → Option (State × Outcome)) :
    List Nat → State → Option (State × Outcome)
  | [], s => some (s, .ok ())
  | i :: indices, s => do
    match ← body i s with
    | (s', .ok ()) => forEach body indices s'
    | (s', .error message) => return (s', .error message)

section Loops

variable (s : State)

def createNewNodesLoop (ids : List Int64) (xs ys zs : List (BitVec 64)) :
    Option (State × Outcome) :=
  if ids.length ≠ xs.length then some (s, .error (sizeError "X-Coordinates".toList))
  else if ids.length ≠ ys.length then some (s, .error (sizeError "Y-Coordinates".toList))
  else if ids.length ≠ zs.length then some (s, .error (sizeError "Z-Coordinates".toList))
  else if s.part.localModelPart.isNone then some (s, .error accessError)
  else forEach (fun i s => do
    return createNewNode s (← ids[i]?) (← xs[i]?) (← ys[i]?) (← zs[i]?)) (List.range ids.length) s

def createNewGhostNodesLoop (ids : List Int64) (xs ys zs : List (BitVec 64))
    (partitionIndices : List (Int32 × Rehash)) : Option (State × Outcome) :=
  if ids.length ≠ xs.length then some (s, .error (sizeError "X-Coordinates".toList))
  else if ids.length ≠ ys.length then some (s, .error (sizeError "Y-Coordinates".toList))
  else if ids.length ≠ zs.length then some (s, .error (sizeError "Z-Coordinates".toList))
  else if ids.length ≠ partitionIndices.length then
    some (s, .error (sizeError "partition indices".toList))
  else if s.part.ghostModelPart.isNone then some (s, .error accessError)
  else forEach (fun i s => do
    let partition ← partitionIndices[i]?
    return createNewGhostNode s partition.2 (← ids[i]?) (← xs[i]?) (← ys[i]?) (← zs[i]?)
      partition.1) (List.range ids.length) s

/-- `conn` and `conn_counter` -/
structure Buffer where
  conn : List Int64
  connCounter : Nat

def Buffer.resize (b : Buffer) (count : Nat) : Buffer :=
  { b with conn := b.conn.take count ++ List.replicate (count - b.conn.length) 0 }

/-- The inner loop over `j`. -/
def fill (connectivities : List Int64) : List Nat → Buffer → Option Buffer
  | [], b => some b
  | j :: indices, b => do
    let id ← connectivities[b.connCounter]?
    fill connectivities indices ⟨b.conn.set j id, b.connCounter + 1⟩

def elementsLoop (ids : List Int64) (types : List ElementType) (connectivities : List Int64) :
    List Nat → Buffer → State → Option (State × Outcome)
  | [], _, s => some (s, .ok ())
  | i :: indices, b, s => do
    let type ← types[i]?
    let b ← fill connectivities (List.range type.numberOfNodes) (b.resize type.numberOfNodes)
    match createNewElement s (← ids[i]?) type b.conn with
    | (s', .ok ()) => elementsLoop ids types connectivities indices b s'
    | (s', .error message) => return (s', .error message)

def createNewElementsLoop (ids : List Int64) (types : List ElementType)
    (connectivities : List Int64) : Option (State × Outcome) :=
  let expected := types.foldl (fun count type => count + type.numberOfNodes) 0
  if ids.length ≠ types.length then some (s, .error (sizeError "Types".toList))
  else if expected ≠ connectivities.length then
    some (s, .error (connectivitiesError expected connectivities.length))
  else if s.part.localModelPart.isNone then some (s, .error accessError)
  else elementsLoop ids types connectivities (List.range ids.length) ⟨[], 0⟩ s

end Loops

/-- The calls succeed one after the other. -/
inductive Succeeds : State → List Creation → State → Prop
  | nil (s : State) : Succeeds s [] s
  | cons {s s' t : State} {call : Creation} {calls : List Creation} :
      create s call = (s', .ok ()) → Succeeds s' calls t → Succeeds s (call :: calls) t

/-- What a bulk operation has to do with the single calls. -/
structure Bulk (s : State) (matching : Prop) (calls : List Creation)
    (result : Option (State × Outcome)) : Prop where
  mismatch : ¬ matching → ∃ message, result = some (s, .error message)
  succeeds : matching → ∀ t, result = some (t, .ok ()) ↔ Succeeds s calls t
  fails : matching → ∀ t message, result = some (t, .error message) ↔
    ∃ i call, calls[i]? = some call ∧ Succeeds s (calls.take i) t ∧
      create t call = (t, .error message)

section Calls

variable {s t : State} {l g : Nat × ModelPart} {calls : List Creation} {message : Text}

theorem createEach_ok_iff : createEach s calls = (t, .ok ()) ↔ Succeeds s calls t := by
  induction calls generalizing s with
  | nil =>
    rw [createEach]
    constructor
    · rintro h
      obtain rfl := (Prod.mk.inj h).1
      exact .nil s
    · rintro ⟨⟩
      rfl
  | cons call calls ih =>
    rw [createEach]
    constructor
    · rintro h
      rcases hCall : create s call with ⟨s', _ | _⟩
      · rw [hCall] at h
        cases h
      · rw [hCall] at h
        exact .cons hCall (ih.mp h)
    · rintro (_ | ⟨hCall, hCalls⟩)
      rw [hCall]
      exact ih.mpr hCalls

theorem createEach_error_iff (h : Invariant s l g) :
    createEach s calls = (t, .error message) ↔
      ∃ i call, calls[i]? = some call ∧ Succeeds s (calls.take i) t ∧
        create t call = (t, .error message) := by
  induction calls generalizing s l g with
  | nil =>
    rw [createEach]
    constructor
    · rintro hResult
      cases hResult
    · rintro ⟨i, call, hCall, -⟩
      cases hCall
  | cons call calls ih =>
    rw [createEach]
    rcases h.create call with ⟨raised, hCall⟩ | ⟨s', l', g', hCall, h', -⟩
    · rw [hCall]
      constructor
      · rintro hResult
        obtain ⟨rfl, hMessage⟩ := Prod.mk.inj hResult
        exact ⟨0, call, rfl, .nil s, hCall.trans (congrArg (Prod.mk s) hMessage)⟩
      · rintro ⟨i, other, hOther, hBefore, hRaised⟩
        cases i with
        | zero =>
          obtain rfl := Option.some.inj hOther
          cases hBefore
          exact hCall.symm.trans hRaised
        | succ i =>
          rcases hBefore with _ | ⟨hOk, -⟩
          rw [hCall] at hOk
          cases hOk
    · rw [hCall]
      refine (ih h').trans ?_
      constructor
      · rintro ⟨i, other, hOther, hBefore, hRaised⟩
        exact ⟨i + 1, other, hOther, .cons hCall hBefore, hRaised⟩
      · rintro ⟨i, other, hOther, hBefore, hRaised⟩
        cases i with
        | zero =>
          obtain rfl := Option.some.inj hOther
          cases hBefore
          rw [hCall] at hRaised
          cases hRaised
        | succ i =>
          rcases hBefore with _ | ⟨hOk, hLater⟩
          rw [hCall] at hOk
          obtain ⟨rfl, -⟩ := Prod.mk.inj hOk
          exact ⟨i, other, hOther, hLater, hRaised⟩

/-- The checks in front of the loop decide between the calls and an error. -/
theorem Bulk.of_createAll {matching : Prop} {todo : Except Text (List Creation)}
    (h : Invariant s l g) (hMismatch : ¬ matching → ∃ message, todo = .error message)
    (hMatch : matching → todo = .ok calls) : Bulk s matching calls (some (createAll s todo)) where
  mismatch hNot := by
    obtain ⟨message, hTodo⟩ := hMismatch hNot
    exact ⟨message, by rw [hTodo, createAll]⟩
  succeeds hMatching t := by
    rw [hMatch hMatching, createAll, Option.some_inj]
    exact createEach_ok_iff
  fails hMatching t message := by
    rw [hMatch hMatching, createAll, Option.some_inj]
    exact createEach_error_iff h

end Calls

section Nodes

variable {s : State} {ids : List Int64} {xs ys zs : List (BitVec 64)}

theorem forEach_eq_createEach {body : Nat → State → Option (State × Outcome)}
    {calls : List Creation} {start : Nat}
    (hBody : ∀ i call, calls[i]? = some call → ∀ s, body (start + i) s = some (create s call)) :
    forEach body (List.range' start calls.length) s = some (createEach s calls) := by
  induction calls generalizing start s with
  | nil => rfl
  | cons call calls ih =>
    have hFirst := hBody 0 call rfl s
    rw [Nat.add_zero] at hFirst
    have hRest := @ih
    rw [List.length_cons, List.range'_succ, forEach, hFirst, createEach]
    rcases create s call with ⟨s', _ | _⟩
    · rfl
    · apply hRest
      rintro i other hOther t
      rw [Nat.add_right_comm]
      exact hBody (i + 1) other hOther t

theorem length_nodeData (hx : ids.length = xs.length) (hy : ids.length = ys.length)
    (hz : ids.length = zs.length) : (nodeData ids xs ys zs).length = ids.length := by
  induction ids generalizing xs ys zs with
  | nil => rfl
  | cons id ids ih =>
    cases xs with
    | nil => nomatch hx
    | cons x xs =>
      cases ys with
      | nil => nomatch hy
      | cons y ys =>
        cases zs with
        | nil => nomatch hz
        | cons z zs =>
          exact congrArg Nat.succ (ih (Nat.succ.inj hx) (Nat.succ.inj hy) (Nat.succ.inj hz))

theorem getElem?_nodeData {i : Nat} {data : NodeData} (h : (nodeData ids xs ys zs)[i]? = some data) :
    ids[i]? = some data.id ∧ xs[i]? = some data.x ∧ ys[i]? = some data.y ∧
      zs[i]? = some data.z := by
  fun_induction nodeData ids xs ys zs generalizing i with
  | case1 id ids x xs y ys z zs ih =>
    cases i with
    | zero =>
      obtain rfl := Option.some.inj h
      exact ⟨rfl, rfl, rfl, rfl⟩
    | succ i => exact ih h
  | case2 => nomatch h

def nodeCalls (ids : List Int64) (xs ys zs : List (BitVec 64)) : List Creation :=
  (nodeData ids xs ys zs).map .node

def ghostNodeCalls (ids : List Int64) (xs ys zs : List (BitVec 64))
    (partitionIndices : List (Int32 × Rehash)) : List Creation :=
  ((nodeData ids xs ys zs).zip partitionIndices).map fun (data, index, rehash) =>
    .ghostNode data index rehash

theorem createNewNodesLoop_eq (s : State) (ids : List Int64) (xs ys zs : List (BitVec 64)) :
    createNewNodesLoop s ids xs ys zs = some (createNewNodes s ids xs ys zs) := by
  rw [createNewNodesLoop, createNewNodes, newNodes]
  split
  · rfl
  next hx =>
  split
  · rfl
  next hy =>
  split
  · rfl
  next hz =>
  split
  · rfl
  have hLength := length_nodeData (not_not.mp hx) (not_not.mp hy) (not_not.mp hz)
  rw [List.range_eq_range', ← hLength, ← List.length_map (f := Creation.node), createAll]
  apply forEach_eq_createEach
  rintro i call hCall s
  rw [List.getElem?_map, Option.map_eq_some_iff] at hCall
  obtain ⟨data, hData, rfl⟩ := hCall
  obtain ⟨hId, hX, hY, hZ⟩ := getElem?_nodeData hData
  rw [Nat.zero_add, hId, hX, hY, hZ]
  rfl

theorem createNewGhostNodesLoop_eq (s : State) (ids : List Int64) (xs ys zs : List (BitVec 64))
    (partitionIndices : List (Int32 × Rehash)) :
    createNewGhostNodesLoop s ids xs ys zs partitionIndices =
      some (createNewGhostNodes s ids xs ys zs partitionIndices) := by
  rw [createNewGhostNodesLoop, createNewGhostNodes, newGhostNodes]
  split
  · rfl
  next hx =>
  split
  · rfl
  next hy =>
  split
  · rfl
  next hz =>
  split
  · rfl
  next hp =>
  split
  · rfl
  have hLength : ids.length = (ghostNodeCalls ids xs ys zs partitionIndices).length := by
    rw [ghostNodeCalls, List.length_map, List.length_zip,
      length_nodeData (not_not.mp hx) (not_not.mp hy) (not_not.mp hz), ← not_not.mp hp,
      Nat.min_self]
  rw [List.range_eq_range', hLength]
  apply forEach_eq_createEach
  rintro i call hCall s
  rw [ghostNodeCalls, List.getElem?_map, Option.map_eq_some_iff] at hCall
  obtain ⟨⟨data, index, rehash⟩, hZip, rfl⟩ := hCall
  obtain ⟨hData, hPartition⟩ := List.getElem?_zip_eq_some.mp hZip
  obtain ⟨hId, hX, hY, hZ⟩ := getElem?_nodeData hData
  rw [Nat.zero_add, hPartition, hId, hX, hY, hZ]
  rfl

variable {l g : Nat × ModelPart}

theorem bulk_createNewNodes (h : Invariant s l g) (ids : List Int64) (xs ys zs : List (BitVec 64)) :
    Bulk s (ids.length = xs.length ∧ ids.length = ys.length ∧ ids.length = zs.length)
      (nodeCalls ids xs ys zs) (createNewNodesLoop s ids xs ys zs) := by
  rw [createNewNodesLoop_eq, createNewNodes]
  apply Bulk.of_createAll h
  · rintro hMismatch
    rw [newNodes]
    split
    · exact ⟨_, rfl⟩
    next hx =>
    split
    · exact ⟨_, rfl⟩
    next hy =>
    split
    · exact ⟨_, rfl⟩
    next hz => exact absurd ⟨not_not.mp hx, not_not.mp hy, not_not.mp hz⟩ hMismatch
  · rintro ⟨hx, hy, hz⟩
    rw [newNodes, if_neg (not_not.mpr hx), if_neg (not_not.mpr hy), if_neg (not_not.mpr hz),
      h.isLocal]
    rfl

theorem bulk_createNewGhostNodes (h : Invariant s l g) (ids : List Int64)
    (xs ys zs : List (BitVec 64)) (partitionIndices : List (Int32 × Rehash)) :
    Bulk s (ids.length = xs.length ∧ ids.length = ys.length ∧ ids.length = zs.length ∧
        ids.length = partitionIndices.length)
      (ghostNodeCalls ids xs ys zs partitionIndices)
      (createNewGhostNodesLoop s ids xs ys zs partitionIndices) := by
  rw [createNewGhostNodesLoop_eq, createNewGhostNodes]
  apply Bulk.of_createAll h
  · rintro hMismatch
    rw [newGhostNodes]
    split
    · exact ⟨_, rfl⟩
    next hx =>
    split
    · exact ⟨_, rfl⟩
    next hy =>
    split
    · exact ⟨_, rfl⟩
    next hz =>
    split
    · exact ⟨_, rfl⟩
    next hp =>
    exact absurd ⟨not_not.mp hx, not_not.mp hy, not_not.mp hz, not_not.mp hp⟩ hMismatch
  · rintro ⟨hx, hy, hz, hp⟩
    rw [newGhostNodes, if_neg (not_not.mpr hx), if_neg (not_not.mpr hy), if_neg (not_not.mpr hz),
      if_neg (not_not.mpr hp), h.isGhost]
    rfl

end Nodes

section Elements

variable {s : State} {ids : List Int64} {types : List ElementType} {connectivities : List Int64}

theorem fill_range' {conn : List Int64} {j count connCounter : Nat}
    (hConn : conn.length = j + count) (hCounter : connCounter + count ≤ connectivities.length) :
    fill connectivities (List.range' j count) ⟨conn, connCounter⟩ =
      some ⟨conn.take j ++ (connectivities.drop connCounter).take count, connCounter + count⟩ := by
  induction count generalizing conn j connCounter with
  | zero =>
    rw [Nat.add_zero] at hConn
    rw [← hConn, List.take_length, List.take_zero, List.append_nil]
    rfl
  | succ count ih =>
    have hLt : connCounter < connectivities.length := by omega
    have hSet : (conn.set j connectivities[connCounter]).length = j + 1 + count := by
      rw [List.length_set]
      omega
    have hRest := @ih (conn.set j connectivities[connCounter]) (j + 1) (connCounter + 1) hSet
      (by omega)
    have hTake : (conn.set j connectivities[connCounter]).take (j + 1) =
        conn.take j ++ [connectivities[connCounter]] := by
      rw [List.take_add_one, List.take_set_of_le (Nat.le_refl j),
        List.getElem?_set_self (by omega)]
      rfl
    rw [List.range'_succ, fill, List.getElem?_eq_getElem hLt]
    change fill connectivities (List.range' (j + 1) count) _ = _
    rw [hRest, hTake, List.drop_eq_getElem_cons hLt, List.take_succ_cons, List.append_assoc,
      List.singleton_append, Nat.add_right_comm]
    rfl

theorem fill_resize (b : Buffer) {count : Nat}
    (hCounter : b.connCounter + count ≤ connectivities.length) :
    fill connectivities (List.range count) (b.resize count) =
      some ⟨(connectivities.drop b.connCounter).take count, b.connCounter + count⟩ := by
  rw [List.range_eq_range', Buffer.resize, fill_range' _ hCounter]
  · rfl
  · simp
    omega

/-- The calls from the entry at `i` on, whose connectivities start at `connCounter`. -/
theorem elementsLoop_eq {i : Nat} {b : Buffer} (hIds : ids.length = types.length)
    (hCounter : b.connCounter + ((types.drop i).map ElementType.numberOfNodes).sum =
      connectivities.length) :
    elementsLoop ids types connectivities (List.range' i (ids.length - i)) b s =
      some (createEach s (elementData (ids.drop i) (types.drop i)
        (connectivities.drop b.connCounter))) := by
  induction hCount : ids.length - i generalizing i b s with
  | zero =>
    rw [List.drop_eq_nil_of_le (by omega : ids.length ≤ i)]
    rfl
  | succ count ih =>
    have hId : i < ids.length := by omega
    have hType : i < types.length := by omega
    rw [List.drop_eq_getElem_cons hType, List.map_cons, List.sum_cons] at hCounter
    rw [List.drop_eq_getElem_cons hId, List.drop_eq_getElem_cons hType, elementData, createEach,
      List.range'_succ, elementsLoop, List.getElem?_eq_getElem hType,
      List.getElem?_eq_getElem hId]
    dsimp only [Option.bind_eq_bind, Option.bind_some]
    rw [fill_resize b (by omega)]
    dsimp only [Option.bind_some, create]
    rcases createNewElement s ids[i] types[i] _ with ⟨s', _ | _⟩
    · rfl
    · have hAfter : b.connCounter + types[i].numberOfNodes +
          ((types.drop (i + 1)).map ElementType.numberOfNodes).sum = connectivities.length := by
        omega
      have hRest := @ih s' (i + 1) ⟨(connectivities.drop b.connCounter).take types[i].numberOfNodes,
        b.connCounter + types[i].numberOfNodes⟩ hAfter (by omega)
      rw [List.drop_drop]
      exact hRest

theorem foldl_numberOfNodes (types : List ElementType) (count : Nat) :
    types.foldl (fun count type => count + type.numberOfNodes) count =
      count + (types.map ElementType.numberOfNodes).sum := by
  induction types generalizing count with
  | nil => rfl
  | cons type types ih => rw [List.foldl_cons, ih, List.map_cons, List.sum_cons, Nat.add_assoc]

theorem createNewElementsLoop_eq (s : State) (ids : List Int64) (types : List ElementType)
    (connectivities : List Int64) :
    createNewElementsLoop s ids types connectivities =
      some (createNewElements s ids types connectivities) := by
  have hExpected := foldl_numberOfNodes types 0
  rw [Nat.zero_add] at hExpected
  rw [createNewElementsLoop, createNewElements, newElements, hExpected]
  split
  · rfl
  next hTypes =>
  split
  · rfl
  next hTotal =>
  split
  · rfl
  rw [List.range_eq_range', createAll]
  apply elementsLoop_eq (not_not.mp hTypes)
  rw [List.drop_zero, Nat.zero_add, not_not.mp hTotal]

variable {l g : Nat × ModelPart}

theorem bulk_createNewElements (h : Invariant s l g) (ids : List Int64) (types : List ElementType)
    (connectivities : List Int64) :
    Bulk s (ids.length = types.length ∧
        (types.map ElementType.numberOfNodes).sum = connectivities.length)
      (elementData ids types connectivities)
      (createNewElementsLoop s ids types connectivities) := by
  rw [createNewElementsLoop_eq, createNewElements]
  apply Bulk.of_createAll h
  · rintro hMismatch
    rw [newElements]
    split
    · exact ⟨_, rfl⟩
    next hTypes =>
    split
    · exact ⟨_, rfl⟩
    next hTotal => exact absurd ⟨not_not.mp hTypes, not_not.mp hTotal⟩ hMismatch
  · rintro ⟨hTypes, hTotal⟩
    rw [newElements, if_neg (not_not.mpr hTypes), if_neg (not_not.mpr hTotal), h.isLocal]
    rfl

/-- Entry `i` gets the slice after those of the entries before it. -/
theorem getElem?_elementData {i : Nat} {call : Creation}
    (h : (elementData ids types connectivities)[i]? = some call) : ∃ id type hSize,
    ids[i]? = some id ∧ types[i]? = some type ∧ call = .element id type
      ((connectivities.drop ((types.take i).map ElementType.numberOfNodes).sum).take
        type.numberOfNodes) hSize := by
  fun_induction elementData ids types connectivities generalizing i with
  | case1 id ids type types connectivities ih =>
    cases i with
    | zero =>
      obtain rfl := Option.some.inj h
      exact ⟨id, type, _, rfl, rfl, rfl⟩
    | succ i =>
      obtain ⟨id', type', hSize, hId, hType, rfl⟩ := ih h
      rw [List.drop_drop] at hSize
      refine ⟨id', type', hSize, hId, hType, ?_⟩
      simp only [List.take_succ_cons, List.map_cons, List.sum_cons, List.drop_drop]
  | case2 => nomatch h

end Elements

/-- The states of a `ModelPart` from its public constructor on. -/
def Reachable (s : State) : Prop :=
  ∃ heap name start ops, new heap name = .ok start ∧ s = run ⟨start.1, start.2⟩ ops

theorem Reachable.invariant {s : State} (h : Reachable s) : ∃ l g, Invariant s l g := by
  obtain ⟨heap, name, start, ops, hNew, rfl⟩ := h
  obtain ⟨l, g, hInvariant, hLog, -⟩ := invariant_new hNew
  obtain ⟨l', g', h', -, -⟩ := hInvariant.run hLog ops
  exact ⟨l', g', h'⟩

/-- The bulk operations are the single ones in order, element `i` with its own slice. -/
theorem bulk_equals_single (s : State) (hReachable : Reachable s) :
    (∀ ids xs ys zs, Bulk s
      (ids.length = xs.length ∧ ids.length = ys.length ∧ ids.length = zs.length)
      (nodeCalls ids xs ys zs) (createNewNodesLoop s ids xs ys zs)) ∧
    (∀ ids xs ys zs partitionIndices, Bulk s
      (ids.length = xs.length ∧ ids.length = ys.length ∧ ids.length = zs.length ∧
        ids.length = partitionIndices.length)
      (ghostNodeCalls ids xs ys zs partitionIndices)
      (createNewGhostNodesLoop s ids xs ys zs partitionIndices)) ∧
    (∀ ids types connectivities, Bulk s (ids.length = types.length ∧
        (types.map ElementType.numberOfNodes).sum = connectivities.length)
      (elementData ids types connectivities)
      (createNewElementsLoop s ids types connectivities)) ∧
    ∀ (ids : List Int64) (types : List ElementType) (connectivities : List Int64) (i : Nat)
      (call : Creation),
      (elementData ids types connectivities)[i]? = some call → ∃ id type hSize,
        ids[i]? = some id ∧ types[i]? = some type ∧ call = .element id type
          ((connectivities.drop ((types.take i).map ElementType.numberOfNodes).sum).take
            type.numberOfNodes) hSize := by
  obtain ⟨l, g, h⟩ := hReachable.invariant
  exact ⟨bulk_createNewNodes h, bulk_createNewGhostNodes h, bulk_createNewElements h,
    fun _ _ _ _ _ => getElem?_elementData⟩

theorem bulk_equals_single_line :
    Bulk oneNode (2 = 2 ∧ 2 = 2) (elementData [1, 1] [.point2D, .point2D] [1, 1])
      (createNewElementsLoop oneNode [1, 1] [.point2D, .point2D] [1, 1]) :=
  (bulk_equals_single oneNode
    ⟨emptyHeap, "mp".toList, started, [.create (.node ⟨1, 0, 0, 0⟩)], rfl, rfl⟩).2.2.1
      [1, 1] [.point2D, .point2D] [1, 1]

end CoSimIO.ModelPart
