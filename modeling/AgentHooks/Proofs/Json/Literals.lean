/-
The literal of a number.

What a reader of numbers reads of an input is a literal in front of what it
leaves, and the number depends on the literal alone: anything else that can end
a number may stand behind it (`isLocal_readNumber`).  Each reader is local
because the one is to which it hands what it has not read; the digits of an
exponent are an induction on the input.
-/
import AgentHooks.Proofs.Json.Scalars

namespace AgentHooks.Json

/-- A reader gives `a` for the literal, whatever ends it. -/
def ReadsLiteral {α : Type} (read : Bytes → Reading α) (literal : Bytes) (a : α) : Prop :=
  ∀ r, EndsNumber r → read (literal ++ r) = .ok (a, r)

/-- What is read of an input is a literal in front of what is left. -/
def IsLocal {α : Type} (read : Bytes → Reading α) : Prop :=
  ∀ s a rest, read s = .ok (a, rest) →
    ∃ literal, s = literal ++ rest ∧ ReadsLiteral read literal a

/-! ## Digits in front -/

theorem isDigit_of_mem_takeWhile (s : Bytes) : ∀ b ∈ s.takeWhile isDigit, isDigit b = true :=
  List.all_eq_true.mp List.all_takeWhile

theorem noDigit_dropWhile (s : Bytes) : NoDigit (s.dropWhile isDigit) := by
  intro b hb
  have hfirst := List.head?_dropWhile_not isDigit s
  rw [hb] at hfirst
  exact hfirst

theorem noDigit_iff {r : Bytes} : NoDigit r ↔ ¬ r.head?.any isDigit = true := by
  simp only [NoDigit, Option.any_eq_true, not_exists, not_and, Bool.not_eq_true, Option.mem_def]

/-- A literal with no digit in front does not get one from what follows it. -/
theorem NoDigit.append {literal rest r : Bytes} (h : NoDigit (literal ++ rest)) (hr : NoDigit r) :
    NoDigit (literal ++ r) := by
  cases literal with
  | nil => exact hr
  | cons b literal => exact h

/-- Digits, then a literal that is read by itself. -/
theorem exists_literal_of_dropWhile {α : Type} {read : Bytes → Reading α} (hread : IsLocal read)
    {s : Bytes} {a : α} {rest : Bytes} (h : read (s.dropWhile isDigit) = .ok (a, rest)) :
    ∃ literal, s = s.takeWhile isDigit ++ literal ++ rest ∧ ReadsLiteral read literal a ∧
      ∀ r, EndsNumber r →
        (s.takeWhile isDigit ++ literal ++ r).takeWhile isDigit = s.takeWhile isDigit ∧
        (s.takeWhile isDigit ++ literal ++ r).dropWhile isDigit = literal ++ r := by
  obtain ⟨literal, hliteral, hreads⟩ := hread _ _ _ h
  refine ⟨literal, ?_, hreads, fun r hr => ?_⟩
  · rw [List.append_assoc, ← hliteral, List.takeWhile_append_dropWhile]
  · have hfirst : NoDigit (literal ++ r) := (hliteral ▸ noDigit_dropWhile s).append hr.noDigit
    rw [List.append_assoc]
    exact takeWhile_isDigit_append (isDigit_of_mem_takeWhile s) hfirst

/-! ## Exponents -/

theorem readExponentDigits_cons {b : UInt8} (hb : isDigit b = true) (n : Nat) (s : Bytes) :
    readExponentDigits n (b :: s) =
      if exponentLimit < n * 10 + digitValue b then .beyondLimit s
      else readExponentDigits (n * 10 + digitValue b) s := by
  rw [readExponentDigits, if_pos hb]

theorem readExponentDigits_of_noDigit {r : Bytes} (h : NoDigit r) (n : Nat) :
    readExponentDigits n r = .value n r := by
  cases r with
  | nil => rfl
  | cons b r => rw [readExponentDigits, h b rfl, if_neg Bool.false_ne_true]

theorem exists_literal_of_readExponentDigits {s : Bytes} {n m : Nat} {rest : Bytes}
    (h : readExponentDigits n s = .value m rest) :
    ∃ literal, s = literal ++ rest ∧
      ∀ r, NoDigit r → readExponentDigits n (literal ++ r) = .value m r := by
  induction s generalizing n with
  | nil =>
      cases h
      exact ⟨[], rfl, fun r hr => readExponentDigits_of_noDigit hr m⟩
  | cons b s ih =>
      by_cases hb : isDigit b = true
      · rw [readExponentDigits_cons hb] at h
        split at h
        · cases h
        · rename_i hlimit
          obtain ⟨literal, rfl, hreads⟩ := ih h
          refine ⟨b :: literal, rfl, fun r hr => ?_⟩
          rw [List.cons_append, readExponentDigits_cons hb, if_neg hlimit]
          exact hreads r hr
      · rw [readExponentDigits, if_neg hb] at h
        cases h
        exact ⟨[], rfl, fun r hr => readExponentDigits_of_noDigit hr m⟩

theorem exists_literal_of_beyondLimit {s : Bytes} {n : Nat} {rest : Bytes}
    (h : readExponentDigits n s = .beyondLimit rest) :
    ∃ literal, s = literal ++ rest ∧ ∀ r, readExponentDigits n (literal ++ r) = .beyondLimit r := by
  induction s generalizing n with
  | nil => cases h
  | cons b s ih =>
      by_cases hb : isDigit b = true
      · rw [readExponentDigits_cons hb] at h
        split at h
        · rename_i hlimit
          cases h
          refine ⟨[b], rfl, fun r => ?_⟩
          rw [List.singleton_append, readExponentDigits_cons hb, if_pos hlimit]
        · rename_i hlimit
          obtain ⟨literal, rfl, hreads⟩ := ih h
          refine ⟨b :: literal, rfl, fun r => ?_⟩
          rw [List.cons_append, readExponentDigits_cons hb, if_neg hlimit]
          exact hreads r
      · rw [readExponentDigits, if_neg hb] at h
        cases h

/-! ## Readers that hand over what is left -/

section Readers

variable {α : Type} {read read' : Bytes → Reading α} {a : α} {rest : Bytes}

/-- A reader that reads nothing is local. -/
theorem isLocal_of_eq_ok (h : ∀ r, read r = .ok (a, r)) : IsLocal read := by
  intro s x rest hs
  rw [h s] at hs
  cases hs
  exact ⟨[], rfl, fun r _ => h r⟩

/-- A byte that is passed over stands in front of the literal. -/
theorem exists_literal_of_skip (hread : IsLocal read') {b : UInt8} {s : Bytes}
    (hskip : ∀ r, read (b :: r) = read' r) (h : read (b :: s) = .ok (a, rest)) :
    ∃ literal, b :: s = literal ++ rest ∧ ReadsLiteral read literal a := by
  obtain ⟨literal, rfl, hreads⟩ := hread _ _ _ (hskip s ▸ h)
  exact ⟨b :: literal, rfl, fun r hr => (hskip (literal ++ r)).trans (hreads r hr)⟩

/-- A reader that hands over all that begins with this byte, and that reads what
the other one reads of nothing, has the other one's literals. -/
theorem exists_literal_of_handover (hread : IsLocal read') {b : UInt8} {s : Bytes}
    (hbyte : ∀ r, read (b :: r) = read' (b :: r))
    (hend : ∀ r, EndsNumber r → read' r = .ok (a, r) → read r = .ok (a, r))
    (h : read (b :: s) = .ok (a, rest)) :
    ∃ literal, b :: s = literal ++ rest ∧ ReadsLiteral read literal a := by
  obtain ⟨literal, hliteral, hreads⟩ := hread _ _ _ (hbyte s ▸ h)
  refine ⟨literal, hliteral, fun r hr => ?_⟩
  cases literal with
  | nil => exact hend r hr (hreads r hr)
  | cons c literal =>
      obtain ⟨rfl, -⟩ := List.cons.inj hliteral
      exact (hbyte (literal ++ r)).trans (hreads r hr)

end Readers

section Numbers

variable (negative : Bool) (sig : Significand) (whole : List Nat)

/-! ## Ends of numbers -/

variable {negative sig} in
theorem finishFloat_eq_ok {s rest : Bytes} {n : Number}
    (h : finishFloat negative sig s = .ok (n, rest)) :
    rest = s ∧ ∀ r, finishFloat negative sig r = .ok (n, r) := by
  cases hx : Binary64.ofSignificand? sig with
  | none =>
      simp only [finishFloat, hx] at h
      cases h
  | some x =>
      simp only [finishFloat, hx] at h ⊢
      cases h
      exact ⟨rfl, fun _ => rfl⟩

theorem isLocal_finishFloat : IsLocal (finishFloat negative sig) := by
  intro s n rest h
  obtain ⟨rfl, hsame⟩ := finishFloat_eq_ok h
  exact ⟨[], rfl, fun r _ => hsame r⟩

theorem isLocal_finishWhole : IsLocal (finishWhole negative whole) := by
  by_cases hzero : negative = true ∧ digitsValue whole = 0
  · refine isLocal_of_eq_ok (a := .float (.zero true)) fun r => ?_
    simp only [finishWhole, if_pos hzero]
  cases hx : Number.ofInt? (if negative then -(digitsValue whole : Int) else digitsValue whole) with
  | none =>
      have hfloat : finishWhole negative whole = finishFloat negative (.ofDigits whole []) := by
        funext r
        simp only [finishWhole, if_neg hzero, hx]
      rw [hfloat]
      exact isLocal_finishFloat negative _
  | some x =>
      refine isLocal_of_eq_ok (a := x) fun r => ?_
      simp only [finishWhole, if_neg hzero, hx]

/-- The number whose exponent has these digits. -/
def finishExponent (down : Bool) : ExponentDigits → Reading Number
  | .value n rest =>
    finishFloat negative ⟨sig.digits, if down then sig.exponent - n else sig.exponent + n⟩ rest
  | .beyondLimit rest =>
    if sig.digits ≠ 0 ∧ !down then stopBefore .numberTooLarge rest
    else .ok (.float (.zero negative), rest.dropWhile isDigit)

/-- What is read after the first digit of an exponent. -/
theorem isLocal_finishExponent (down : Bool) (n : Nat) :
    IsLocal fun s => finishExponent negative sig down (readExponentDigits n s) := by
  intro s x rest h
  cases hdigits : readExponentDigits n s with
  | value m left =>
      obtain ⟨literal, rfl, hreads⟩ := exists_literal_of_readExponentDigits hdigits
      simp only [hdigits] at h
      obtain ⟨rfl, hsame⟩ := finishFloat_eq_ok h
      refine ⟨literal, rfl, fun r hr => ?_⟩
      simp only [hreads r hr.noDigit]
      exact hsame r
  | beyondLimit left =>
      obtain ⟨literal, rfl, hreads⟩ := exists_literal_of_beyondLimit hdigits
      simp only [hdigits, finishExponent] at h
      split at h
      · cases h
      rename_i hzero
      cases h
      refine ⟨literal ++ left.takeWhile isDigit, ?_, fun r hr => ?_⟩
      · rw [List.append_assoc, List.takeWhile_append_dropWhile]
      · obtain ⟨-, hdrop⟩ := takeWhile_isDigit_append (isDigit_of_mem_takeWhile left) hr.noDigit
        simp only [List.append_assoc, hreads, finishExponent, if_neg hzero, hdrop]

/-! ## Exponents and their signs -/

/-- Reads an exponent after its sign. -/
def readMagnitude (down : Bool) : Bytes → Reading Number
  | [] => stopBefore .endInValue []
  | b :: r =>
    if !isDigit b then stopBefore .badNumber r
    else finishExponent negative sig down (readExponentDigits 0 (b :: r))

theorem readMagnitude_digit {b : UInt8} (hb : isDigit b = true) (down : Bool) (r : Bytes) :
    readMagnitude negative sig down (b :: r) =
      finishExponent negative sig down (readExponentDigits (digitValue b) r) := by
  have hlimit : ¬ exponentLimit < digitValue b := by
    have hbyte := b.toNat_lt
    rw [exponentLimit, digitValue]
    omega
  rw [readMagnitude, hb, readExponentDigits_cons hb, Nat.zero_mul, Nat.zero_add, if_neg hlimit]
  rfl

theorem readMagnitude_ne_ok {r : Bytes} (hr : NoDigit r) (down : Bool) (x : Number × Bytes) :
    readMagnitude negative sig down r ≠ .ok x := by
  intro h
  cases r with
  | nil => cases h
  | cons b r =>
      rw [readMagnitude, hr b rfl] at h
      cases h

theorem isLocal_readMagnitude (down : Bool) : IsLocal (readMagnitude negative sig down) := by
  intro s n rest h
  cases s with
  | nil => cases h
  | cons b s =>
      cases hb : isDigit b with
      | true =>
          exact exists_literal_of_skip (isLocal_finishExponent negative sig down (digitValue b))
            (readMagnitude_digit negative sig hb down) h
      | false =>
          have hfirst : NoDigit (b :: s) := by rintro x ⟨⟩; exact hb
          exact absurd h (readMagnitude_ne_ok negative sig hfirst down _)

theorem readExponent_plus (r : Bytes) :
    readExponent negative sig ('+'.toUInt8 :: r) = readMagnitude negative sig false r := by
  cases r <;> rfl

theorem readExponent_minus (r : Bytes) :
    readExponent negative sig ('-'.toUInt8 :: r) = readMagnitude negative sig true r := by
  cases r <;> rfl

theorem readExponent_eq_readMagnitude {b : UInt8} (hplus : b ≠ '+'.toUInt8)
    (hminus : b ≠ '-'.toUInt8) (r : Bytes) :
    readExponent negative sig (b :: r) = readMagnitude negative sig false (b :: r) := by
  simp only [readExponent, if_neg hplus, if_neg hminus]
  rfl

theorem isLocal_readExponent : IsLocal (readExponent negative sig) := by
  intro s n rest h
  cases s with
  | nil => cases h
  | cons b s =>
      by_cases hplus : b = '+'.toUInt8
      · subst hplus
        exact exists_literal_of_skip (isLocal_readMagnitude negative sig false)
          (readExponent_plus negative sig) h
      by_cases hminus : b = '-'.toUInt8
      · subst hminus
        exact exists_literal_of_skip (isLocal_readMagnitude negative sig true)
          (readExponent_minus negative sig) h
      exact exists_literal_of_handover (isLocal_readMagnitude negative sig false)
        (readExponent_eq_readMagnitude negative sig hplus hminus)
        (fun r hr hok => absurd hok (readMagnitude_ne_ok negative sig hr.noDigit false _)) h

/-! ## Fractions and whole digits -/

theorem readTail_mark {b : UInt8} (hb : isExponentMark b = true) (r : Bytes) :
    readTail negative sig (b :: r) = readExponent negative sig r := by
  rw [readTail, if_pos hb]

theorem readTail_of_endsNumber {r : Bytes} (h : EndsNumber r) :
    readTail negative sig r = finishFloat negative sig r := by
  cases r with
  | nil => rfl
  | cons b r => rw [readTail, (h b rfl).2.2, if_neg Bool.false_ne_true]

theorem isLocal_readTail : IsLocal (readTail negative sig) := by
  intro s n rest h
  cases s with
  | nil =>
      obtain ⟨rfl, hsame⟩ := finishFloat_eq_ok h
      exact ⟨[], rfl, fun r hr => (readTail_of_endsNumber negative sig hr).trans (hsame r)⟩
  | cons b s =>
      cases hb : isExponentMark b with
      | true =>
          exact exists_literal_of_skip (isLocal_readExponent negative sig)
            (readTail_mark negative sig hb) h
      | false =>
          refine exists_literal_of_handover (isLocal_finishFloat negative sig) (fun r => ?_)
            (fun r hr hok => (readTail_of_endsNumber negative sig hr).trans hok) h
          rw [readTail, hb, if_neg Bool.false_ne_true]

theorem readFraction_point (r : Bytes) :
    readFraction negative whole ('.'.toUInt8 :: r) =
      if r.takeWhile isDigit = [] then
        stopAt (if r.dropWhile isDigit = [] then .endInValue else .badNumber) (r.dropWhile isDigit)
      else
        readTail negative (.ofDigits whole ((r.takeWhile isDigit).map digitValue))
          (r.dropWhile isDigit) := rfl

theorem readFraction_mark {b : UInt8} (hb : isExponentMark b = true) (r : Bytes) :
    readFraction negative whole (b :: r) = readExponent negative (.ofDigits whole []) r := by
  have hpoint : b ≠ '.'.toUInt8 := by
    rintro rfl
    cases hb
  rw [readFraction, if_neg hpoint, if_pos hb]

theorem isLocal_readFraction : IsLocal (readFraction negative whole) := by
  intro s n rest h
  cases s with
  | nil =>
      obtain ⟨literal, hliteral, hreads⟩ := isLocal_finishWhole negative whole _ _ _ h
      obtain ⟨rfl, rfl⟩ := List.nil_eq_append_iff.mp hliteral
      refine ⟨[], rfl, fun r hr => ?_⟩
      exact (readFraction_of_endsNumber hr negative whole).trans (hreads r hr)
  | cons b s =>
      by_cases hpoint : b = '.'.toUInt8
      · subst hpoint
        rw [readFraction_point] at h
        split at h
        · cases h
        rename_i hdigits
        obtain ⟨literal, hs, hreads, hspan⟩ :=
          exists_literal_of_dropWhile (isLocal_readTail negative _) h
        refine ⟨'.'.toUInt8 :: (s.takeWhile isDigit ++ literal), ?_, fun r hr => ?_⟩
        · rw [List.cons_append, ← hs]
        · obtain ⟨htake, hdrop⟩ := hspan r hr
          rw [List.cons_append, readFraction_point, htake, hdrop, if_neg hdigits]
          exact hreads r hr
      cases hmark : isExponentMark b with
      | true =>
          exact exists_literal_of_skip (isLocal_readExponent negative _)
            (readFraction_mark negative whole hmark) h
      | false =>
          refine exists_literal_of_handover (isLocal_finishWhole negative whole) (fun r => ?_)
            (fun r hr hok => (readFraction_of_endsNumber hr negative whole).trans hok) h
          rw [readFraction, if_neg hpoint, hmark, if_neg Bool.false_ne_true]

theorem readNumber_zero (r : Bytes) :
    readNumber negative ('0'.toUInt8 :: r) =
      if r.head?.any isDigit then stopAt .badNumber r else readFraction negative [0] r := rfl

theorem readNumber_digit {b : UInt8} (hb : isDigit b = true) (hzero : b ≠ '0'.toUInt8)
    (r : Bytes) :
    readNumber negative (b :: r) =
      readFraction negative (((b :: r).takeWhile isDigit).map digitValue)
        ((b :: r).dropWhile isDigit) := by
  rw [readNumber, hb, if_neg hzero]
  rfl

/-- A number that is read is a literal, and depends on nothing else. -/
theorem isLocal_readNumber : IsLocal (readNumber negative) := by
  intro s n rest h
  cases s with
  | nil => cases h
  | cons b s =>
      cases hb : isDigit b with
      | false =>
          rw [readNumber, hb] at h
          cases h
      | true =>
          by_cases hzero : b = '0'.toUInt8
          · subst hzero
            rw [readNumber_zero] at h
            split at h
            · cases h
            rename_i hnext
            obtain ⟨literal, rfl, hreads⟩ := isLocal_readFraction negative [0] _ _ _ h
            refine ⟨'0'.toUInt8 :: literal, rfl, fun r hr => ?_⟩
            rw [List.cons_append, readNumber_zero, if_neg]
            · exact hreads r hr
            · exact noDigit_iff.mp ((noDigit_iff.mpr hnext).append hr.noDigit)
          · rw [readNumber_digit negative hb hzero] at h
            obtain ⟨literal, hs, hreads, hspan⟩ :=
              exists_literal_of_dropWhile (isLocal_readFraction negative _) h
            refine ⟨(b :: s).takeWhile isDigit ++ literal, hs, fun r hr => ?_⟩
            obtain ⟨htake, hdrop⟩ := hspan r hr
            have hdigits : (b :: s).takeWhile isDigit = b :: s.takeWhile isDigit := by
              rw [List.takeWhile_cons, if_pos hb]
            simp only [hdigits, List.cons_append] at htake hdrop hreads ⊢
            rw [readNumber_digit negative hb hzero, htake, hdrop]
            exact hreads r hr

end Numbers

end AgentHooks.Json
