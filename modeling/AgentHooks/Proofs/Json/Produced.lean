/-
What the readers of JSON text return.

A reader bounds the containers that are open and makes a record of the members
of an object.  So a value that was read is no deeper than the bound, and all of
its objects are in key order, whatever order and repetitions the text has
(`parse_sorted_and_depth_le`).
-/
import AgentHooks.Json.Parser
import AgentHooks.Proofs.Json.Records
import AgentHooks.Proofs.Json.Shape

namespace AgentHooks

section Results

variable {ε α β : Type}

theorem exists_of_bind_eq_ok {x : Except ε α} {f : α → Except ε β} {b : β}
    (h : (x >>= f) = .ok b) : ∃ a, x = .ok a ∧ f a = .ok b := by
  cases x with
  | error e => cases h
  | ok a => exact ⟨a, rfl, h⟩

theorem map_eq_ok_iff {x : Except ε α} {f : α → β} {b : β} :
    x.map f = .ok b ↔ ∃ a, x = .ok a ∧ f a = b := by
  cases x with
  | error e => simp only [Except.map, reduceCtorEq, false_and, exists_false]
  | ok a => simp only [Except.map, Except.ok.injEq, exists_eq_left']

end Results

namespace Json

/-- Whatever a reader returns satisfies `p`. -/
def Gives {α : Type} (read : Bytes → Except Stop (α × Bytes)) (p : α → Prop) : Prop :=
  ∀ s a rest, read s = .ok (a, rest) → p a

section Containers

variable {item : Bytes → Reading Json} {p : Json → Prop} (hitem : Gives item p)

include hitem

theorem gives_readItems (fuel : Nat) : Gives (readItems item fuel) fun vs => ∀ v ∈ vs, p v := by
  induction fuel with
  | zero =>
      intro s vs rest h
      cases h
  | succ fuel ih =>
      intro s vs rest h
      simp only [readItems] at h
      split at h
      · cases h
      split at h
      · cases h
        exact nofun
      split at h
      · split at h
        · cases h
        split at h
        · cases h
        obtain ⟨⟨v, s₁⟩, hv, h⟩ := exists_of_bind_eq_ok h
        obtain ⟨⟨ws, s₂⟩, hws, h⟩ := exists_of_bind_eq_ok h
        cases h
        exact List.forall_mem_cons.mpr ⟨hitem _ _ _ hv, ih _ _ _ hws⟩
      · cases h

theorem gives_readArray : Gives (readArray item) fun vs => ∀ v ∈ vs, p v := by
  intro s vs rest h
  simp only [readArray] at h
  split at h
  · cases h
  split at h
  · cases h
    exact nofun
  obtain ⟨⟨v, s₁⟩, hv, h⟩ := exists_of_bind_eq_ok h
  obtain ⟨⟨ws, s₂⟩, hws, h⟩ := exists_of_bind_eq_ok h
  cases h
  exact List.forall_mem_cons.mpr ⟨hitem _ _ _ hv, gives_readItems hitem _ _ _ _ hws⟩

theorem gives_readMember : Gives (readMember item) fun m => p m.2 := by
  intro s m rest h
  obtain ⟨⟨key, s₁⟩, -, h⟩ := exists_of_bind_eq_ok h
  simp only at h
  split at h
  · cases h
  split at h
  · obtain ⟨⟨v, s₂⟩, hv, h⟩ := exists_of_bind_eq_ok h
    cases h
    exact hitem _ _ _ hv
  · cases h

theorem gives_readMembers (fuel : Nat) :
    Gives (readMembers item fuel) fun ms => ∀ m ∈ ms, p m.2 := by
  induction fuel with
  | zero =>
      intro s ms rest h
      cases h
  | succ fuel ih =>
      intro s ms rest h
      simp only [readMembers] at h
      split at h
      · cases h
      split at h
      · cases h
        exact nofun
      split at h
      · split at h
        · cases h
        split at h
        · obtain ⟨⟨m, s₁⟩, hm, h⟩ := exists_of_bind_eq_ok h
          obtain ⟨⟨ns, s₂⟩, hns, h⟩ := exists_of_bind_eq_ok h
          cases h
          exact List.forall_mem_cons.mpr ⟨gives_readMember hitem _ _ _ hm, ih _ _ _ hns⟩
        · cases h
      · cases h

theorem gives_readObject : Gives (readObject item) fun r => ∀ m ∈ r.members, p m.2 := by
  intro s r rest h
  simp only [readObject] at h
  split at h
  · cases h
  split at h
  · cases h
    exact nofun
  split at h
  · obtain ⟨⟨m, s₁⟩, hm, h⟩ := exists_of_bind_eq_ok h
    obtain ⟨⟨ns, s₂⟩, hns, h⟩ := exists_of_bind_eq_ok h
    cases h
    have hall : ∀ n ∈ m :: ns, p n.2 := List.forall_mem_cons.mpr
      ⟨gives_readMember hitem _ _ _ hm, gives_readMembers hitem _ _ _ _ hns⟩
    exact fun n hn => hall n (Record.mem_ofMembers hn)
  · cases h

end Containers

/-- What is read is a scalar or was read as a container. -/
theorem gives_readValueWith {nested : NestedReader} {p : Json → Prop}
    (hscalar : ∀ v, v.depth = 0 → p v) (hnested : ∀ isArray, Gives (nested isArray) p) :
    Gives (readValueWith nested) p := by
  have hmap {α : Type} {f : α → Json} (hf : ∀ a, (f a).depth = 0) {x : Except Stop (α × Bytes)}
      {v : Json} {rest : Bytes} (h : (x.map fun (a, r) => (f a, r)) = .ok (v, rest)) : p v := by
    obtain ⟨⟨a, r⟩, -, h⟩ := map_eq_ok_iff.mp h
    cases h
    exact hscalar _ (hf a)
  intro s v rest h
  simp only [readValueWith] at h
  split at h
  · cases h
  split at h
  · obtain ⟨r, -, h⟩ := map_eq_ok_iff.mp h
    cases h
    exact hscalar _ rfl
  split at h
  · obtain ⟨r, -, h⟩ := map_eq_ok_iff.mp h
    cases h
    exact hscalar _ rfl
  split at h
  · obtain ⟨r, -, h⟩ := map_eq_ok_iff.mp h
    cases h
    exact hscalar _ rfl
  split at h
  · exact hmap (fun _ => rfl) h
  split at h
  · exact hmap (fun _ => rfl) h
  split at h
  · exact hmap (fun _ => rfl) h
  split at h
  · exact hnested true _ _ _ h
  split at h
  · exact hnested false _ _ _ h
  · cases h

theorem sorted_of_depth_eq_zero {v : Json} (h : v.depth = 0) : v.Sorted := by
  cases v with
  | null | bool _ | number _ | string _ => rfl
  | array vs => cases h
  | object ms => cases h

theorem gives_readValue (d : Nat) : Gives (readValue d) fun v => v.Sorted ∧ v.depth ≤ d := by
  have hscalar (d : Nat) (v : Json) (h : v.depth = 0) : v.Sorted ∧ v.depth ≤ d :=
    ⟨sorted_of_depth_eq_zero h, h ▸ Nat.zero_le d⟩
  induction d with
  | zero =>
      refine gives_readValueWith (hscalar 0) ?_
      intro isArray s v rest h
      cases h
  | succ d ih =>
      refine gives_readValueWith (hscalar (d + 1)) ?_
      intro isArray s v rest h
      cases isArray with
      | true =>
          obtain ⟨⟨vs, r⟩, hvs, h⟩ := map_eq_ok_iff.mp h
          cases h
          have hall := gives_readArray ih _ _ _ hvs
          exact ⟨sorted_array.mpr fun v hv => (hall v hv).1,
            depth_array_le.mpr fun v hv => (hall v hv).2⟩
      | false =>
          obtain ⟨⟨o, r⟩, ho, h⟩ := map_eq_ok_iff.mp h
          cases h
          have hall := gives_readObject ih _ _ _ ho
          exact ⟨sorted_object.mpr ⟨o.ordered, fun m hm => (hall m hm).1⟩,
            depth_object_le.mpr fun m hm => (hall m hm).2⟩

theorem exists_readValue_of_parse {input : Bytes} {v : Json} (h : parse input = .ok v) :
    ∃ rest, readValue depthLimit input = .ok (v, rest) ∧ skipSpace rest = [] := by
  cases hread : readWhole input with
  | error stop =>
      rw [parse, hread] at h
      cases h
  | ok w =>
      rw [parse, hread] at h
      cases h
      obtain ⟨⟨u, rest⟩, hu, h⟩ := exists_of_bind_eq_ok hread
      simp only at h
      split at h
      · rename_i hend
        cases h
        exact ⟨rest, hu, hend⟩
      · cases h

/-- What a whole text was read as. -/
theorem parse_sorted_and_depth_le {input : Bytes} {v : Json} (h : parse input = .ok v) :
    v.Sorted ∧ v.depth ≤ depthLimit := by
  obtain ⟨rest, hread, -⟩ := exists_readValue_of_parse h
  exact gives_readValue depthLimit _ _ _ hread

/-- The record of an object whose members are in key order is that object. -/
theorem eq_toJson_of_asRecord? {v : Json} {r : Record} (hsorted : v.Sorted)
    (h : v.asRecord? = some r) : v = r.toJson := by
  cases v with
  | null | bool _ | number _ | string _ | array _ => cases h
  | object ms =>
      cases h
      exact congrArg object (Record.ofMembers_members (sorted_object.mp hsorted).1).symm

/-- What a text is read as is an object exactly when it is a record's value. -/
theorem asRecord?_of_parse_iff {input : Bytes} {v : Json} (h : parse input = .ok v) {r : Record} :
    v.asRecord? = some r ↔ v = r.toJson := by
  constructor
  · exact eq_toJson_of_asRecord? (parse_sorted_and_depth_le h).1
  · rintro rfl
    exact Record.asRecord?_toJson r

end Json

end AgentHooks
