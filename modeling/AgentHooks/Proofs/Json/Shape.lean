/-
The shape of JSON values.

How deep a value is nested, and what holds of all of its parts: that no number
is a float, and that every object has its members in key order.  The type lets
the members of an object stand in any order; a value in the sense of the format,
where an object is a map, is one that is `Sorted`.  Each notion comes with what
it says of a container in terms of its parts, and `induction` goes through a
value in the same way.
-/
import AgentHooks.Json.Record

namespace AgentHooks

instance (members : List (String × Json)) : Decidable (Ordered members) :=
  inferInstanceAs (Decidable (members.Pairwise _))

namespace Json

/-- Induction on a value; an array and an object come with the hypothesis for
each of their parts. -/
@[elab_as_elim, induction_eliminator]
theorem induction {motive : Json → Prop} (null : motive .null) (bool : ∀ b, motive (.bool b))
    (number : ∀ n, motive (.number n)) (string : ∀ s, motive (.string s))
    (array : ∀ items, (∀ v ∈ items, motive v) → motive (.array items))
    (object : ∀ members, (∀ m ∈ members, motive m.2) → motive (.object members)) :
    ∀ v, motive v :=
  @Json.rec motive (fun items => ∀ v ∈ items, motive v)
    (fun members => ∀ m ∈ members, motive m.2) (fun m => motive m.2)
    null bool number string array object
    (fun _ h => absurd h List.not_mem_nil)
    (fun _ _ hv hvs => List.forall_mem_cons.mpr ⟨hv, hvs⟩)
    (fun _ h => absurd h List.not_mem_nil)
    (fun _ _ hm hms => List.forall_mem_cons.mpr ⟨hm, hms⟩)
    (fun _ _ hv => hv)

/-! ## Depth -/

mutual

/-- How deep a value is nested: a scalar is not, a container is one deeper than
its deepest part. -/
def depth : Json → Nat
  | .array items => depthItems items + 1
  | .object members => depthMembers members + 1
  | _ => 0

def depthItems : List Json → Nat
  | [] => 0
  | v :: vs => max v.depth (depthItems vs)

def depthMembers : List (String × Json) → Nat
  | [] => 0
  | (_, v) :: ms => max v.depth (depthMembers ms)

end

theorem depthItems_le {vs : List Json} {d : Nat} :
    depthItems vs ≤ d ↔ ∀ v ∈ vs, v.depth ≤ d := by
  induction vs with
  | nil => simp [depthItems]
  | cons v vs ih => simp only [depthItems, Nat.max_le, ih, List.forall_mem_cons]

theorem depthMembers_le {ms : List (String × Json)} {d : Nat} :
    depthMembers ms ≤ d ↔ ∀ m ∈ ms, m.2.depth ≤ d := by
  induction ms with
  | nil => simp [depthMembers]
  | cons m ms ih => simp only [depthMembers, Nat.max_le, ih, List.forall_mem_cons]

theorem depth_array_le {vs : List Json} {d : Nat} :
    (array vs).depth ≤ d + 1 ↔ ∀ v ∈ vs, v.depth ≤ d := by
  rw [depth, Nat.add_le_add_iff_right, depthItems_le]

theorem depth_object_le {ms : List (String × Json)} {d : Nat} :
    (object ms).depth ≤ d + 1 ↔ ∀ m ∈ ms, m.2.depth ≤ d := by
  rw [depth, Nat.add_le_add_iff_right, depthMembers_le]

theorem lt_depth_array {vs : List Json} {d : Nat} :
    d + 1 < (array vs).depth ↔ ∃ v ∈ vs, d < v.depth := by
  rw [← Nat.not_le, depth_array_le]
  simp only [Classical.not_forall, Nat.not_le, exists_prop]

theorem lt_depth_object {ms : List (String × Json)} {d : Nat} :
    d + 1 < (object ms).depth ↔ ∃ m ∈ ms, d < m.2.depth := by
  rw [← Nat.not_le, depth_object_le]
  simp only [Classical.not_forall, Nat.not_le, exists_prop]

/-! ## What holds of all parts -/

mutual

/-- Whether a value and all of its parts satisfy `p`. -/
def every (p : Json → Bool) : Json → Bool
  | .array items => p (.array items) && everyItem p items
  | .object members => p (.object members) && everyMember p members
  | v => p v

def everyItem (p : Json → Bool) : List Json → Bool
  | [] => true
  | v :: vs => v.every p && everyItem p vs

def everyMember (p : Json → Bool) : List (String × Json) → Bool
  | [] => true
  | (_, v) :: ms => v.every p && everyMember p ms

end

theorem everyItem_iff {p : Json → Bool} {vs : List Json} :
    everyItem p vs = true ↔ ∀ v ∈ vs, v.every p = true := by
  induction vs with
  | nil => simp [everyItem]
  | cons v vs ih => simp only [everyItem, Bool.and_eq_true, ih, List.forall_mem_cons]

theorem everyMember_iff {p : Json → Bool} {ms : List (String × Json)} :
    everyMember p ms = true ↔ ∀ m ∈ ms, m.2.every p = true := by
  induction ms with
  | nil => simp [everyMember]
  | cons m ms ih => simp only [everyMember, Bool.and_eq_true, ih, List.forall_mem_cons]

/-! ## Values without floats -/

def isFloat : Json → Bool
  | .number (.float _) => true
  | _ => false

/-- No number in the value is a float. -/
def FloatFree (v : Json) : Prop := v.every (fun w => !w.isFloat) = true

instance (v : Json) : Decidable v.FloatFree := inferInstanceAs (Decidable (_ = _))

theorem floatFree_array {vs : List Json} : (array vs).FloatFree ↔ ∀ v ∈ vs, v.FloatFree := by
  simp only [FloatFree, every, isFloat, Bool.not_false, Bool.true_and, everyItem_iff]

theorem floatFree_object {ms : List (String × Json)} :
    (object ms).FloatFree ↔ ∀ m ∈ ms, m.2.FloatFree := by
  simp only [FloatFree, every, isFloat, Bool.not_false, Bool.true_and, everyMember_iff]

theorem exists_whole_of_floatFree {n : Number} (h : (number n).FloatFree) :
    ∃ i fits, n = .whole i fits := by
  cases n with
  | whole i fits => exact ⟨i, fits, rfl⟩
  | float x => cases h

/-! ## Values whose objects are in key order -/

def isOrdered : Json → Bool
  | .object ms => decide (Ordered ms)
  | _ => true

/-- Every object in the value has its members in strictly increasing key
order. -/
def Sorted (v : Json) : Prop := v.every isOrdered = true

instance (v : Json) : Decidable v.Sorted := inferInstanceAs (Decidable (_ = _))

theorem sorted_array {vs : List Json} : (array vs).Sorted ↔ ∀ v ∈ vs, v.Sorted := by
  simp only [Sorted, every, isOrdered, Bool.true_and, everyItem_iff]

theorem sorted_object {ms : List (String × Json)} :
    (object ms).Sorted ↔ Ordered ms ∧ ∀ m ∈ ms, m.2.Sorted := by
  simp only [Sorted, every, isOrdered, Bool.and_eq_true, decide_eq_true_eq, everyMember_iff]

end Json

end AgentHooks
