/-
What an envelope resolves to.

`Yields` says by rules what a file gives that is to hold a payload, from the reading of
its bytes to the object in its text, and `Yields.payloadAt_eq` that a file is resolved by
these rules and no others.  So of an envelope that names a file only the path counts, and
of the files only that one; an envelope that names none is its own payload whatever
files there are (`resolve_sees_named_file`).
-/
import AgentHooks.Payload.Envelope
import AgentHooks.Proofs.Json.Produced
import AgentHooks.Proofs.Text.Decoding

namespace AgentHooks.Envelope

/-! ## The path in an envelope -/

theorem nonemptyString?_eq_none_iff {v : Json} :
    nonemptyString? v = none ↔ ∀ s, v = .string s → s = "" := by
  cases v with
  | string s =>
      rw [nonemptyString?]
      split
      · rename_i h
        simpa using h
      · rename_i h
        simpa using h
  | null | bool _ | number _ | array _ | object _ => simp [nonemptyString?]

/-- An object names no file when neither key has a string that is not empty. -/
theorem payloadPath?_object_eq_none_iff {members : List (String × Json)} :
    payloadPath? (.object members) = none ↔
      ∀ key ∈ pathKeys, ∀ s, (Record.ofMembers members).get? key = some (.string s) → s = "" := by
  show pathKeys.findSome? (fun key => ((Record.ofMembers members).get? key).bind nonemptyString?) =
    none ↔ _
  rw [List.findSome?_eq_none_iff]
  refine forall_congr' fun key => imp_congr_right fun _ => ?_
  cases (Record.ofMembers members).get? key with
  | none => simp
  | some v => simp [nonemptyString?_eq_none_iff]

theorem payloadPath?_eq_none_iff {envelope : Json} :
    payloadPath? envelope = none ↔
      (∀ members, envelope ≠ .object members) ∨
      ∃ members, envelope = .object members ∧ ∀ key ∈ pathKeys, ∀ s,
        (Record.ofMembers members).get? key = some (.string s) → s = "" := by
  cases envelope with
  | object members => simp [payloadPath?_object_eq_none_iff]
  | null | bool _ | number _ | string _ | array _ =>
      constructor
      · exact fun _ => .inl nofun
      · exact fun _ => rfl

/-! ## The payload in a file -/

/-- What a file gives that is to hold a payload: the object in it, or what is said of the
file. -/
inductive Yields (files : FileTree) (path : String) : Except String Record → Prop
  | unreadable {fault : FileFault} : files.read path = .error fault →
      Yields files path (.error fault.message)
  | notUtf8 {bytes : Bytes} : files.read path = .ok bytes → (∀ text, bytes ≠ Utf8.encode text) →
      Yields files path (.error "stream did not contain valid UTF-8")
  | notJson {text : String} {fault : Json.Fault} : files.read path = .ok (Utf8.encode text) →
      Json.parseText text = .error fault → Yields files path (.error fault.message)
  | notAnObject {text : String} {v : Json} : files.read path = .ok (Utf8.encode text) →
      Json.parseText text = .ok v → (∀ payload : Record, v ≠ payload.toJson) →
      Yields files path (.error "payload is not a JSON object")
  | object {text : String} {payload : Record} : files.read path = .ok (Utf8.encode text) →
      Json.parseText text = .ok payload.toJson → Yields files path (.ok payload)

section File

variable {files : FileTree} {path : String} {result : Except String Record}

theorem payloadOfBytes_encode (text : String) :
    payloadOfBytes (Utf8.encode text) =
      match Json.parseText text with
      | .error fault => .error fault.message
      | .ok v =>
        match v.asRecord? with
        | some payload => .ok payload
        | none => .error notAnObject := by
  rw [payloadOfBytes, Utf8.decodeText?_eq_some_iff.mpr rfl]
  rfl

theorem Yields.payloadAt_eq (h : Yields files path result) :
    payloadAt files path = result.mapError (.payloadUnavailable path) := by
  rw [payloadAt]
  cases h with
  | unreadable hread => rw [hread]; rfl
  | notUtf8 hread hbytes =>
      rw [hread]
      simp only [payloadOfBytes, Utf8.decodeText?_eq_none_iff.mpr hbytes]
      rfl
  | notJson hread hparse =>
      rw [hread]
      simp only [payloadOfBytes_encode, hparse]
  | @notAnObject text v hread hparse hobject =>
      have hrecord : v.asRecord? = none := by
        refine Option.eq_none_iff_forall_ne_some.mpr fun payload hpayload => ?_
        exact hobject payload ((Json.asRecord?_of_parse_iff hparse).mp hpayload)
      rw [hread]
      simp only [payloadOfBytes_encode, hparse, hrecord]
      rfl
  | object hread hparse =>
      rw [hread]
      simp only [payloadOfBytes_encode, hparse, Record.asRecord?_toJson]

/-- Every file gives something, and nothing else. -/
theorem exists_yields (files : FileTree) (path : String) : ∃ result, Yields files path result := by
  cases hread : files.read path with
  | error fault => exact ⟨_, .unreadable hread⟩
  | ok bytes =>
      cases hdecode : Utf8.decodeText? bytes with
      | none => exact ⟨_, .notUtf8 hread (Utf8.decodeText?_eq_none_iff.mp hdecode)⟩
      | some text =>
          rw [Utf8.decodeText?_eq_some_iff.mp hdecode] at hread
          cases hparse : Json.parseText text with
          | error fault => exact ⟨_, .notJson hread hparse⟩
          | ok v =>
              cases hrecord : v.asRecord? with
              | none =>
                  refine ⟨_, .notAnObject hread hparse ?_⟩
                  rintro payload rfl
                  rw [Record.asRecord?_toJson] at hrecord
                  cases hrecord
              | some payload =>
                  rw [(Json.asRecord?_of_parse_iff hparse).mp hrecord] at hparse
                  exact ⟨_, .object hread hparse⟩

theorem yields_iff :
    Yields files path result ↔
      payloadAt files path = result.mapError (.payloadUnavailable path) := by
  refine ⟨Yields.payloadAt_eq, fun h => ?_⟩
  -- What the file gives by some rule is `result`, since resolving the file tells them apart.
  obtain ⟨other, hother⟩ := exists_yields files path
  rw [hother.payloadAt_eq] at h
  have hresult : other = result := by
    cases other <;> cases result <;> cases h <;> rfl
  exact hresult ▸ hother

theorem payloadAt_eq_ok_iff {payload : Record} :
    payloadAt files path = .ok payload ↔
      ∃ text, files.read path = .ok (Utf8.encode text) ∧
        Json.parseText text = .ok payload.toJson := by
  constructor
  · intro h
    have hyields : Yields files path (.ok payload) := yields_iff.mpr h
    cases hyields with
    | object hread hparse => exact ⟨_, hread, hparse⟩
  · rintro ⟨text, hread, hparse⟩
    exact yields_iff.mp (.object hread hparse)

theorem exists_detail_of_payloadAt (h : ∀ payload, payloadAt files path ≠ .ok payload) :
    ∃ detail, Yields files path (.error detail) ∧
      payloadAt files path = .error (.payloadUnavailable path detail) := by
  obtain ⟨result, hresult⟩ := exists_yields files path
  cases result with
  | ok payload => exact absurd hresult.payloadAt_eq (h payload)
  | error detail => exact ⟨detail, hresult, hresult.payloadAt_eq⟩

end File

/-! ## Envelopes -/

theorem resolve_eq_payloadAt (files : FileTree) {envelope : Json} {path : String}
    (h : payloadPath? envelope = some path) : resolve files envelope = payloadAt files path := by
  rw [resolve, h]

/-- An envelope that cannot be resolved names the file that is at fault. -/
theorem resolve_error {files : FileTree} {envelope : Json} {d : Diagnostic}
    (h : resolve files envelope = .error d) :
    ∃ path detail, payloadPath? envelope = some path ∧ d = .payloadUnavailable path detail := by
  cases hpath : payloadPath? envelope with
  | none =>
      rw [resolve, hpath] at h
      cases h
  | some path =>
      obtain ⟨result, hresult⟩ := exists_yields files path
      rw [resolve_eq_payloadAt files hpath, hresult.payloadAt_eq] at h
      cases result with
      | ok payload => cases h
      | error detail =>
          cases h
          exact ⟨path, detail, rfl, rfl⟩

/-- Resolving sees of an envelope the path in it, and of the files the one at that path.
It gives the object whose JSON text the file holds in UTF-8, or says that the file is
unavailable.  An envelope that is no object, or has a string that is not empty under
neither key for paths, names no file, and is its own payload, or an empty one. -/
theorem resolve_sees_named_file :
    (∀ (files files' : FileTree) (envelope envelope' : Json) (path : String),
      payloadPath? envelope = some path → payloadPath? envelope' = some path →
      files.read path = files'.read path →
      resolve files envelope = resolve files' envelope' ∧
      (∀ payload, resolve files envelope = .ok payload ↔
        ∃ text, files.read path = .ok (Utf8.encode text) ∧
          Json.parseText text = .ok payload.toJson) ∧
      ((∀ payload, resolve files envelope ≠ .ok payload) →
        ∃ detail, Yields files path (.error detail) ∧
          resolve files envelope = .error (.payloadUnavailable path detail))) ∧
    (∀ (files : FileTree) (envelope : Json), payloadPath? envelope = none →
      (∀ members, envelope = .object members →
        resolve files envelope = .ok (.ofMembers members)) ∧
      ((∀ members, envelope ≠ .object members) → resolve files envelope = .ok .empty)) ∧
    ∀ envelope, payloadPath? envelope = none ↔
      (∀ members, envelope ≠ .object members) ∨
      ∃ members, envelope = .object members ∧ ∀ key ∈ ["payload-path", "payload_path"], ∀ s,
        (Record.ofMembers members).get? key = some (.string s) → s = "" := by
  refine ⟨?_, ?_, fun envelope => payloadPath?_eq_none_iff⟩
  · intro files files' envelope envelope' path hpath hpath' hread
    have hsame : payloadAt files path = payloadAt files' path := by
      rw [payloadAt, payloadAt, hread]
    rw [resolve_eq_payloadAt files hpath, resolve_eq_payloadAt files' hpath']
    exact ⟨hsame, fun payload => payloadAt_eq_ok_iff, exists_detail_of_payloadAt⟩
  · intro files envelope hpath
    rw [resolve, hpath]
    constructor
    · rintro members rfl
      rfl
    · intro hobject
      cases envelope with
      | null | bool _ | number _ | string _ | array _ => rfl
      | object members => exact absurd rfl (hobject members)

/-- Two envelopes for one file that is cut off, among different other files, and an
envelope that names none. -/
theorem resolve_sees_named_file_cut_off :
    let cut : Entry := .file (Utf8.encode "\x7b\"a\":1")
    let files : FileTree := ⟨[(["kept"], cut), (["gone"], .directory)]⟩
    let files' : FileTree := ⟨[(["new"], .file []), (["kept"], cut)]⟩
    let envelope : Json := .object [("payload-path", .bool true), ("payload_path", .string "kept")]
    let envelope' : Json :=
      .object [("payload-path", .string "kept"), ("payload_path", .string "new")]
    resolve files envelope = resolve files' envelope' ∧
    (∃ detail, resolve files envelope = .error (.payloadUnavailable "kept" detail)) ∧
    resolve files (.object [("payload-path", .string "")]) =
      .ok (.ofMembers [("payload-path", .string "")]) ∧
    resolve files' (.string "kept") = .ok .empty := by
  intro cut files files' envelope envelope'
  have hpath : payloadPath? envelope = some "kept" := by decide +kernel
  have hpath' : payloadPath? envelope' = some "kept" := by decide +kernel
  obtain ⟨hsame, -, hunavailable⟩ :=
    resolve_sees_named_file.1 files files' envelope envelope' "kept" hpath hpath' rfl
  have hfails : (resolve files envelope).toOption = none := by decide +kernel
  obtain ⟨detail, -, hdetail⟩ := hunavailable fun payload hpayload => by
    rw [hpayload] at hfails
    cases hfails
  refine ⟨hsame, ⟨detail, hdetail⟩, ?_, ?_⟩
  · exact (resolve_sees_named_file.2.1 files _ (by decide +kernel)).1 _ rfl
  · exact (resolve_sees_named_file.2.1 files' _ (by decide +kernel)).2 nofun

end AgentHooks.Envelope
