/-
What the readings of a value see of it.

No reading has anything for null, so each sees of a value no more than what was sent
(`bind_asSent?_bind`).  A text that is a name comes from the string that holds it and
from no other value (`asText?_eq_some_iff`), although every value has a text.
-/
import AgentHooks.Json.Coercion
import AgentHooks.Proofs.Json.Written

namespace AgentHooks.Json

/-! ## Null -/

theorem asText?_eq_none_iff {v : Json} : v.asText? = none ↔ v = .null := by
  cases v <;> simp [asText?]

theorem asSent?_eq_some {v : Json} (h : v ≠ .null) : v.asSent? = some v := by
  cases v with
  | null => exact absurd rfl h
  | bool _ | number _ | string _ | array _ | object _ => rfl

theorem bind_asSent?_bind {α : Type} {read : Json → Option α} (hnull : read .null = none)
    (value : Option Json) : (value.bind asSent?).bind read = value.bind read := by
  cases value with
  | none => rfl
  | some v =>
      by_cases h : v = .null
      · subst h
        exact hnull.symm
      · rw [Option.bind_some, asSent?_eq_some h]

/-! ## Names -/

theorem asText?_eq_some_iff {v : Json} {s : String} (hs : IsName s) :
    v.asText? = some s ↔ v = .string s := by
  have hne : v.text ≠ s := fun h => not_isName_text v (h ▸ hs)
  cases v with
  | null => simp [asText?]
  | string t => simp [asText?]
  | bool _ | number _ | array _ | object _ => simpa [asText?] using hne

theorem ne_empty_of_isName {s : String} (hs : IsName s) : s ≠ "" := by
  rintro rfl
  exact absurd hs (by decide)

/-- The same of a value that may be missing, and counts as an empty text then. -/
theorem getD_asText?_eq_iff {value : Option Json} {s : String} (hs : IsName s) :
    (value.bind asText?).getD "" = s ↔ value = some (.string s) := by
  constructor
  · intro h
    cases htext : value.bind asText? with
    | none =>
        rw [htext] at h
        exact absurd h.symm (ne_empty_of_isName hs)
    | some t =>
        obtain ⟨v, rfl, hv⟩ := Option.bind_eq_some_iff.mp htext
        rw [htext] at h
        rw [(asText?_eq_some_iff hs).mp (hv.trans (congrArg some h))]
  · rintro rfl
    rfl

end AgentHooks.Json
