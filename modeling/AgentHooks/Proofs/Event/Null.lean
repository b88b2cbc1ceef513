/-
Null is nothing.

No reading has anything for null, and the search for the discriminant goes on after it.
So a payload sends the same without a member that is null (`discriminant_erase_of_null`,
`sent?_erase_of_null`), unless another spelling of its key comes to light.  Binding sees
no more of a payload, and the event loses nothing but the member itself from its extras
(`ofRecord_erase_of_null`).
-/
import AgentHooks.Proofs.Event.Unknown

namespace AgentHooks

namespace Record

/-- Nothing is sent under a canonical key when all members that spell it are null. -/
theorem sent?_eq_none {raw : Record} {c : String} (hc : c ≠ Key.discriminant)
    (h : ∀ key v, raw.get? key = some v → Key.canonical key = c → v = .null) :
    raw.sent? c = none := by
  rw [sent?]
  cases hview : raw.normalized.get? c with
  | none => rfl
  | some v =>
      obtain ⟨key, hkey, hcanonical⟩ := exists_of_get?_normalized hc hview
      rw [h key v hkey hcanonical]
      rfl

section Erased

variable {raw : Record} {key : String} (hnull : raw.get? key = some .null)
include hnull

theorem discriminant_erase_of_null : (raw.erase key).discriminant = raw.discriminant := by
  rw [discriminant, discriminant]
  refine congrArg (Option.getD · "") (findSome?_congr fun k _ => ?_)
  rw [get?_erase]
  by_cases hk : k = key
  · rw [if_pos hk, hk, hnull]
    rfl
  · rw [if_neg hk]

theorem sent?_erase_of_null
    (hkey : key ∈ Key.discriminantSpellings ∨
      ∀ k ∈ raw.keys, k ≠ key → Key.canonical k ≠ Key.canonical key)
    {c : String} (hc : c ≠ Key.discriminant) : (raw.erase key).sent? c = raw.sent? c := by
  by_cases hcanonical : Key.canonical key = c
  · -- The key is not one of the discriminant, so it is the only one that spells `c`.
    have hapart : ∀ k ∈ raw.keys, k ≠ key → Key.canonical k ≠ c := by
      rcases hkey with hmem | hapart
      · exact absurd hcanonical (Key.canonical_ne_of_mem_spellings hmem hc)
      · exact hcanonical ▸ hapart
    have honly : ∀ k v, raw.get? k = some v → Key.canonical k = c → k = key := by
      intro k v hv hk
      refine Decidable.byContradiction fun hne => ?_
      exact hapart k (mem_keys_iff.mpr ⟨v, hv⟩) hne hk
    have hraw : raw.sent? c = none := by
      refine sent?_eq_none hc fun k v hv hk => ?_
      rw [honly k v hv hk, hnull] at hv
      exact (Option.some.inj hv).symm
    have herased : (raw.erase key).sent? c = none := by
      refine sent?_eq_none hc fun k v hv hk => ?_
      rw [get?_erase] at hv
      split at hv
      · cases hv
      · rename_i hne
        exact absurd (honly k v hv hk) hne
    rw [hraw, herased]
  · rw [sent?, sent?, get?_normalized_of_spelled_eq (spelled_erase raw hcanonical) hc]

end Erased

end Record

namespace Event

/-- A member that is null can be removed, when its key is one of the discriminant's or no
other key of the payload has the same canonical form: the kind, the header and the named
fields stay, and the extras lose no other member. -/
theorem ofRecord_erase_of_null (raw : Record) (key : String) (hnull : raw.get? key = some .null)
    (hkey : key ∈ Key.discriminantSpellings ∨
      ∀ k ∈ raw.keys, k ≠ key → Key.canonical k ≠ Key.canonical key) :
    (ofRecord (raw.erase key)).kind = (ofRecord raw).kind ∧
    (ofRecord (raw.erase key)).header = (ofRecord raw).header ∧
    (ofRecord (raw.erase key)).fields = (ofRecord raw).fields ∧
    (ofRecord (raw.erase key)).extras = (ofRecord raw).extras.erase key := by
  obtain ⟨hkind, hheader, hfields⟩ := ofRecord_of_sent_eq
    (Record.discriminant_erase_of_null hnull)
    fun c _ hc => Record.sent?_erase_of_null hnull hkey hc
  refine ⟨hkind, hheader, hfields, ?_⟩
  show (raw.erase key).extras (ofRecord (raw.erase key)).kind.fieldNames = _
  rw [hkind]
  exact Record.filterKeys_erase raw _ key

/-- A payload with null for the first of two discriminants, a named field and an extra. -/
def sparse : Record :=
  .ofMembers [("type", .null), ("hook_event_name", .string "PostToolUse"),
    ("tool_name", .null), ("status", .string "ok"), ("x_y", .null)]

theorem ofRecord_erase_of_null_sparse :
    (ofRecord (sparse.erase "type")).header = (ofRecord sparse).header ∧
    (ofRecord sparse).header.eventType = "PostToolUse" ∧
    (ofRecord (sparse.erase "tool_name")).fields = (ofRecord sparse).fields ∧
    (ofRecord sparse).field? "tool-name" = some (.text none) ∧
    (ofRecord (sparse.erase "x_y")).extras = (ofRecord sparse).extras.erase "x_y" ∧
    (ofRecord sparse).extras.keys = ["x_y"] := by
  have hname := ofRecord_erase_of_null sparse "type" (by decide +kernel) (by decide +kernel)
  have hfield := ofRecord_erase_of_null sparse "tool_name" (by decide +kernel) (by decide +kernel)
  have hextra := ofRecord_erase_of_null sparse "x_y" (by decide +kernel) (by decide +kernel)
  exact ⟨hname.2.1, by decide +kernel, hfield.2.2.1, by decide +kernel, hextra.2.2.2,
    by decide +kernel⟩

end Event

end AgentHooks
