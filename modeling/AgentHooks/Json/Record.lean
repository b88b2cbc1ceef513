/-
Records: JSON objects as maps.

A record keeps its members in strictly increasing order of their keys, so a key
has at most one value and a record has one form.  The lemmas say what each
operation does to the members or to `get?`.
-/
import AgentHooks.Json.Basic

namespace AgentHooks

/-- Members in strictly increasing order of their keys. -/
def Ordered (members : List (String × Json)) : Prop :=
  members.Pairwise fun a b => a.1 < b.1

/-- An object as a map from keys to values. -/
structure Record where
  members : List (String × Json)
  ordered : Ordered members
deriving DecidableEq

namespace Record

def empty : Record := ⟨[], .nil⟩

def get? (r : Record) (key : String) : Option Json :=
  (r.members.find? (·.1 == key)).map (·.2)

def keys (r : Record) : List String := r.members.map (·.1)

/-- Puts a member in its place, instead of the one with the same key if there
is one. -/
def place (key : String) (value : Json) : List (String × Json) → List (String × Json)
  | [] => [(key, value)]
  | m :: ms =>
    if key < m.1 then (key, value) :: m :: ms
    else if key = m.1 then (key, value) :: ms
    else m :: place key value ms

theorem mem_place {key : String} {value : Json} {ms : List (String × Json)}
    {m : String × Json} (h : m ∈ place key value ms) : m = (key, value) ∨ m ∈ ms := by
  induction ms with
  | nil => simpa [place] using h
  | cons n ns ih =>
    rw [place] at h
    split at h
    · simpa using h
    · split at h
      · rcases List.mem_cons.1 h with h | h
        · exact .inl h
        · exact .inr (List.mem_cons_of_mem _ h)
      · rcases List.mem_cons.1 h with h | h
        · exact .inr (h ▸ List.mem_cons_self)
        · exact (ih h).imp_right (List.mem_cons_of_mem _)

theorem ordered_place (key : String) (value : Json) {ms : List (String × Json)}
    (h : Ordered ms) : Ordered (place key value ms) := by
  induction ms with
  | nil => exact List.pairwise_singleton ..
  | cons n ns ih =>
    have ⟨hn, hns⟩ := List.pairwise_cons.1 h
    rw [place]
    split
    · rename_i hlt
      exact List.pairwise_cons.2 ⟨fun m hm => by
        rcases List.mem_cons.1 hm with rfl | hm
        · exact hlt
        · exact String.lt_trans hlt (hn m hm), h⟩
    · split
      · rename_i heq
        subst heq
        exact List.pairwise_cons.2 ⟨hn, hns⟩
      · rename_i hlt hne
        refine List.pairwise_cons.2 ⟨fun m hm => ?_, ih hns⟩
        rcases mem_place hm with rfl | hm
        · exact Std.lt_of_le_of_ne hlt (Ne.symm hne)
        · exact hn m hm

/-- The record with a member added or replaced. -/
def insert (r : Record) (key : String) (value : Json) : Record :=
  ⟨place key value r.members, ordered_place key value r.ordered⟩

/-- The record of the members whose key satisfies `keep`. -/
def filterKeys (r : Record) (keep : String → Bool) : Record :=
  ⟨r.members.filter fun m => keep m.1, List.Pairwise.filter _ r.ordered⟩

def erase (r : Record) (key : String) : Record := r.filterKeys (· != key)

/-- The record of some members; of two with the same key the later one counts. -/
def ofMembers (members : List (String × Json)) : Record :=
  members.foldl (fun r m => r.insert m.1 m.2) empty

def toJson (r : Record) : Json := .object r.members

@[simp] theorem get?_empty (key : String) : empty.get? key = none := rfl

theorem find?_place (key : String) (value : Json) (ms : List (String × Json)) (k : String) :
    (place key value ms).find? (·.1 == k) =
      if k = key then some (key, value) else ms.find? (·.1 == k) := by
  induction ms with
  | nil =>
    by_cases h : k = key
    · simp [place, h]
    · simp [place, h, Ne.symm h]
  | cons n ns ih =>
    rw [place]
    split
    · by_cases h : k = key
      · simp [h]
      · simp [h, Ne.symm h]
    · split
      · rename_i heq
        by_cases h : k = key
        · simp [h]
        · have h₁ : key ≠ k := fun e => h e.symm
          have h₂ : n.1 ≠ k := fun e => h₁ (heq.trans e)
          simp [h, h₁, h₂]
      · rename_i hne
        by_cases h : n.1 = k
        · have : ¬ k = key := fun e => hne (e ▸ h.symm)
          simp [h, this]
        · simp [h, ih]

/-- After an insertion a key has the new value if it is the inserted one, and
the value it had before otherwise. -/
theorem get?_insert (r : Record) (key : String) (value : Json) (k : String) :
    (r.insert key value).get? k = if k = key then some value else r.get? k := by
  unfold get? insert
  rw [find?_place]
  split <;> simp

/-- A key that is kept has the value it had, and no other key has one. -/
theorem get?_filterKeys (r : Record) (keep : String → Bool) (k : String) :
    (r.filterKeys keep).get? k = if keep k then r.get? k else none := by
  obtain ⟨ms, ordered⟩ := r
  simp only [get?, filterKeys, List.find?_filter]
  clear ordered
  induction ms with
  | nil => simp
  | cons m ms ih =>
    by_cases hm : m.1 = k
    · subst hm
      cases hk : keep m.1
      · simpa [hk] using ih
      · simp [hk]
    · cases hk : keep m.1 <;> simpa [hk, hm] using ih

end Record

namespace Json

/-- The record of an object; other values have none. -/
def asRecord? : Json → Option Record
  | .object members => some (Record.ofMembers members)
  | _ => none

end Json

end AgentHooks
