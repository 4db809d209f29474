import UrlShortener.Proof.PasswordHasher

/-!
# When verification is total and strict

`verifyPassword` reads the number with `std::stoi` and the digits with a stream, and both take more than they should:
a text that is not a number or an odd number of digits is an exception, and blanks, signs, other characters, zero and
an empty hash are let through.

* `Strict`: what a stored text has to be for a password to be accepted.
* `verifyPassword_of_parts`: what is returned when nothing is thrown.
* `Sound`: a condition on the password and the text alone.
* `total_and_strict_iff`: **verification is total and strict exactly where it holds**, whatever PBKDF2 computes.
-/

namespace UrlShortener.PasswordHasher

open Text

/-! ## What is meant -/

/-- An even number of hexadecimal digits, and the bytes they denote. -/
inductive HexBytes : Str → List UInt8 → Prop
  | nil : HexBytes [] []
  | cons {c d : Char} {a b : ℕ} {hex : Str} {bytes : List UInt8} : hexDigitValue c = some a →
    hexDigitValue d = some b → HexBytes hex bytes → HexBytes (c :: d :: hex) (UInt8.ofNat (16 * a + b) :: bytes)

/-- The decimal digits of a positive number. -/
def PositiveDecimal (text : Str) : Prop :=
  text ≠ [] ∧ (∀ c ∈ text, c.isDigit = true) ∧ 0 < Nat.ofDigitChars 10 text 0

/-- **The stored text is `pbkdf2sha256:iterations:saltHex:hashHex`**, with a positive count, an even number of digits
in both parts, and a hash that is not empty and is the PBKDF2 output for the password. -/
def Strict (openssl : Openssl) (password passwordHash : Str) : Prop :=
  ∃ iterations saltHex hashHex salt hash,
    passwordHash = kAlgoTag ++ ':' :: (iterations ++ ':' :: (saltHex ++ ':' :: hashHex)) ∧
    PositiveDecimal iterations ∧ HexBytes saltHex salt ∧ HexBytes hashHex hash ∧ hash ≠ [] ∧
    openssl.pbkdf2 password password.length salt salt.length (Nat.ofDigitChars 10 iterations 0) hash.length = some hash

/-! ## Digits -/

/-- Nothing but hexadecimal digits. -/
def IsHex (hex : Str) : Prop := ∀ c ∈ hex, (hexDigitValue c).isSome = true

variable {hex saltHex hashHex iterations password passwordHash : Str} {bytes salt hash : List UInt8}

theorem not_blank_of_hexDigit {c : Char} {a : ℕ} (h : hexDigitValue c = some a) :
    isSpace c = false ∧ c ≠ '-' ∧ c ≠ '+' ∧ c ≠ ':' := by
  have hnone : ∀ d : Char, hexDigitValue d = none → c ≠ d := by
    rintro d hd rfl
    rw [hd] at h
    cases h
  refine ⟨?_, hnone '-' rfl, hnone '+' rfl, hnone ':' rfl⟩
  by_contra hspace
  simp only [isSpace, Bool.not_eq_false, Bool.or_eq_true, beq_iff_eq, Bool.and_eq_true, decide_eq_true_eq] at hspace
  rcases hspace with rfl | ⟨hlow, hhigh⟩
  · cases h
  · have hdigits : 48 ≤ c.toNat := by
      unfold hexDigitValue at h
      split_ifs at h with h₁ h₂ h₃
      · exact h₁.1
      · exact Nat.le_trans (by decide) h₂.1
      · exact Nat.le_trans (by decide) h₃.1
    omega

/-- Two digits are read as the byte they denote. -/
theorem readHex_digits {c d : Char} {a b : ℕ} (hc : hexDigitValue c = some a) (hd : hexDigitValue d = some b) :
    readHex [c, d] = UInt8.ofNat (16 * a + b) := by
  obtain ⟨hspace, hminus, hplus, -⟩ := not_blank_of_hexDigit hc
  have hsign : splitSign ([c, d].dropWhile isSpace) = (false, [c, d]) := by
    rw [List.dropWhile_cons_of_neg (by simp [hspace])]
    unfold splitSign
    split
    · rename_i heq
      exact absurd (List.cons.inj heq).1 hminus
    · rename_i heq
      exact absurd (List.cons.inj heq).1 hplus
    · rfl
  simp [readHex, hsign, hexNumber, hc, hd]

theorem HexBytes.spec (h : HexBytes hex bytes) :
    hex.length = 2 * bytes.length ∧ hexPairs hex = bytes ∧ IsHex hex := by
  induction h with
  | nil => exact ⟨rfl, rfl, by simp [IsHex]⟩
  | @cons c d a b hex bytes hc hd _ ih =>
    obtain ⟨hlength, hpairs, hall⟩ := ih
    refine ⟨by simp [hlength]; omega, by rw [hexPairs, readHex_digits hc hd, hpairs], ?_⟩
    intro e he
    simp only [List.mem_cons] at he
    rcases he with rfl | rfl | he
    · simp [hc]
    · simp [hd]
    · exact hall e he

/-- **The decoder agrees with the digits** where there are only digits. -/
theorem hexBytes_hexPairs (heven : hex.length % 2 = 0) (hall : IsHex hex) : HexBytes hex (hexPairs hex) := by
  fun_induction hexPairs hex with
  | case1 c d hex ih =>
    obtain ⟨a, ha⟩ := Option.isSome_iff_exists.1 (hall c (by simp))
    obtain ⟨b, hb⟩ := Option.isSome_iff_exists.1 (hall d (by simp))
    rw [readHex_digits ha hb]
    refine .cons ha hb (ih ?_ fun e he => hall e (by simp [he]))
    simp only [List.length_cons] at heven
    omega
  | case2 hex hnot =>
    match hex, hnot, heven with
    | [], _, _ => exact .nil
    | [_], _, heven => cases heven
    | c :: d :: hex, hnot, _ => exact absurd rfl (hnot c d hex)

theorem length_hexPairs (heven : hex.length % 2 = 0) : hex.length = 2 * (hexPairs hex).length := by
  fun_induction hexPairs hex with
  | case1 c d hex ih =>
    simp only [List.length_cons] at heven ⊢
    have := ih (by omega)
    omega
  | case2 hex hnot =>
    match hex, hnot, heven with
    | [], _, _ => rfl
    | [_], _, heven => cases heven
    | c :: d :: hex, hnot, _ => exact absurd rfl (hnot c d hex)

theorem fromHex_eq_ok (heven : hex.length % 2 = 0) : fromHex hex = .ok (hexPairs hex) := by
  rw [fromHex, if_neg (by omega)]

theorem fromHex_eq_error (hodd : hex.length % 2 ≠ 0) : fromHex hex = .error "Invalid hex string" := by
  rw [fromHex, if_pos hodd]

theorem colon_not_mem_of_isHex (h : IsHex hex) : ':' ∉ hex := by
  intro hmem
  cases h ':' hmem

theorem colon_not_mem_of_digits (h : ∀ c ∈ iterations, c.isDigit = true) : ':' ∉ iterations := by
  intro hmem
  cases h ':' hmem

/-! ## Sizes -/

theorem castInt_eq_iff {n : ℕ} : castInt n = n ↔ n < 2 ^ 31 := by
  refine ⟨fun h => ?_, castInt_eq⟩
  have hbound := (Int32.ofInt n).toInt_lt
  rw [castInt] at h
  omega

theorem castInt_le (n : ℕ) : castInt n ≤ n := by
  by_cases h : n < 2 ^ 31
  · exact (castInt_eq h).le
  · have hbound := (Int32.ofInt n).toInt_lt
    rw [castInt]
    omega

/-- A hash that can be written: the size is passed as an `int`, and what is not written stays zero. A hash of less than
2^31 bytes is one. -/
def Writable (hash : List UInt8) : Prop := ∀ b ∈ hash.drop (castInt hash.length).toNat, b = 0

theorem writable_iff {keylen : ℕ} (hkeylen : keylen = (castInt hash.length).toNat) :
    Writable hash ↔
      ∃ out : List UInt8, out.length = keylen ∧ out ++ List.replicate (hash.length - out.length) 0 = hash := by
  have hle : keylen ≤ hash.length := by
    have := castInt_le hash.length
    omega
  constructor
  · intro h
    refine ⟨hash.take keylen, by simp [hle], ?_⟩
    have hzeros : List.replicate (hash.length - keylen) 0 = hash.drop keylen := by
      refine (List.eq_replicate_iff.2 ⟨List.length_drop, ?_⟩).symm
      rw [hkeylen]
      exact h
    rw [List.length_take, Nat.min_eq_left hle, hzeros, List.take_append_drop]
  · rintro ⟨out, hout, heq⟩ b hb
    rw [← hkeylen, ← heq, ← hout, List.drop_left] at hb
    exact List.eq_of_mem_replicate hb

/-! ## What is returned -/

theorem splitStored_eq {algo : Str} (h : splitStored passwordHash = some (algo, iterations, saltHex, hashHex)) :
    passwordHash = algo ++ ':' :: (iterations ++ ':' :: (saltHex ++ ':' :: hashHex)) := by
  unfold splitStored at h
  split at h
  · cases h
  · rename_i rest hcut
    split at h
    · cases h
    · rename_i rest' hcut'
      split at h
      · cases h
      · rename_i hcut''
        cases h
        rw [cut_eq hcut, cut_eq hcut', cut_eq hcut'']
        simp

theorem splitStored_text (hiterations : ':' ∉ iterations) (hsalt : ':' ∉ saltHex) :
    splitStored (kAlgoTag ++ ':' :: (iterations ++ ':' :: (saltHex ++ ':' :: hashHex))) =
      some (kAlgoTag, iterations, saltHex, hashHex) := by
  rw [splitStored, cut_singleton (by decide)]
  simp only
  rw [cut_singleton hiterations]
  simp only
  rw [cut_singleton hsalt]

variable {openssl : Openssl} {algo : Str} {n : ℤ}

theorem verifyPassword_other_tag (hsplit : splitStored passwordHash = some (algo, iterations, saltHex, hashHex))
    (hn : stoi iterations = .ok n) (halgo : algo ≠ kAlgoTag) :
    verifyPassword openssl password passwordHash = .ok false := by
  rw [verifyPassword, hsplit]
  simp only [hn, bind, Except.bind, if_pos halgo]
  rfl

theorem verifyPassword_throws {e : Str} (hsplit : splitStored passwordHash = some (algo, iterations, saltHex, hashHex))
    (hn : stoi iterations = .error e) : verifyPassword openssl password passwordHash = .error e := by
  rw [verifyPassword, hsplit]
  simp only [hn, bind, Except.bind]

theorem verifyPassword_odd (hsplit : splitStored passwordHash = some (kAlgoTag, iterations, saltHex, hashHex))
    (hn : stoi iterations = .ok n) (hodd : saltHex.length % 2 ≠ 0 ∨ hashHex.length % 2 ≠ 0) :
    verifyPassword openssl password passwordHash = .error "Invalid hex string" := by
  rw [verifyPassword, hsplit]
  simp only [hn, bind, Except.bind, ne_eq, not_true_eq_false, if_false]
  by_cases hsalt : saltHex.length % 2 = 0
  · have hhash : hashHex.length % 2 ≠ 0 := hodd.resolve_left (fun h => h hsalt)
    rw [fromHex_eq_ok hsalt, fromHex_eq_error hhash]
  · rw [fromHex_eq_error hsalt]

/-- Where nothing is thrown, the parts are readable; the count is read before anything else. -/
theorem parts_of_ok {b : Bool} (hsplit : splitStored passwordHash = some (algo, iterations, saltHex, hashHex))
    (h : verifyPassword openssl password passwordHash = .ok b) :
    ∃ n, stoi iterations = .ok n ∧ (algo = kAlgoTag → saltHex.length % 2 = 0 ∧ hashHex.length % 2 = 0) := by
  cases hn : stoi iterations with
  | error e =>
    rw [verifyPassword_throws hsplit hn] at h
    cases h
  | ok n =>
    refine ⟨n, rfl, ?_⟩
    rintro rfl
    by_contra hodd
    rw [not_and_or] at hodd
    rw [verifyPassword_odd hsplit hn hodd] at h
    cases h

/-- **What is returned for a text with readable parts.** -/
theorem verifyPassword_of_parts (openssl : Openssl) (password : Str)
    (hsplit : splitStored passwordHash = some (kAlgoTag, iterations, saltHex, hashHex))
    (hn : stoi iterations = .ok n) (hsalt : saltHex.length % 2 = 0) (hhash : hashHex.length % 2 = 0) :
    ∃ b, verifyPassword openssl password passwordHash = .ok b ∧ (b = true ↔
      ∃ out, openssl.pbkdf2 password (castInt password.length) (hexPairs saltHex) (castInt (hexPairs saltHex).length) n
          (castInt (hexPairs hashHex).length) = some out ∧
        out ++ List.replicate ((hexPairs hashHex).length - out.length) 0 = hexPairs hashHex) := by
  rw [verifyPassword, hsplit]
  simp only [hn, bind, Except.bind, ne_eq, not_true_eq_false, if_false, fromHex_eq_ok hsalt, fromHex_eq_ok hhash]
  cases hout : openssl.pbkdf2 password (castInt password.length) (hexPairs saltHex)
      (castInt (hexPairs saltHex).length) n (castInt (hexPairs hashHex).length) with
  | none => exact ⟨false, rfl, by simp⟩
  | some out =>
    have hlength := openssl.length_pbkdf2 _ _ _ _ _ _ out hout
    have hle := castInt_le (hexPairs hashHex).length
    have hsame : (out ++ List.replicate ((hexPairs hashHex).length - out.length) 0).length =
        (hexPairs hashHex).length := by
      rw [List.length_append, List.length_replicate]
      omega
    simp only [hsame, not_true_eq_false, if_false]
    refine ⟨_, rfl, ?_⟩
    rw [beq_iff_eq, difference_eq_zero_iff hsame]
    simp

/-! ## Where verification is total and strict -/

/-- **The condition**: three colons are missing, or the count is readable and, behind the tag of the hasher, both parts
have an even length and a hash that can be written comes with a positive decimal count, hexadecimal digits only, a
hash that is not empty, and sizes that fit into an `int`. -/
def Sound (password passwordHash : Str) : Prop :=
  ∀ algo iterations saltHex hashHex, splitStored passwordHash = some (algo, iterations, saltHex, hashHex) →
    (∃ n, stoi iterations = .ok n) ∧
    (algo = kAlgoTag → saltHex.length % 2 = 0 ∧ hashHex.length % 2 = 0 ∧
      (Writable (hexPairs hashHex) → PositiveDecimal iterations ∧ IsHex saltHex ∧ IsHex hashHex ∧ hashHex ≠ [] ∧
        password.length < 2 ^ 31 ∧ saltHex.length < 2 ^ 32 ∧ hashHex.length < 2 ^ 32))

/-- A PBKDF2 that succeeds on one input only. -/
def only (pass : Str) (passlen : ℤ) (salt : List UInt8) (saltlen iter keylen : ℤ) (out : List UInt8)
    (h : out.length = keylen.toNat) : Openssl where
  pbkdf2 pass' passlen' salt' saltlen' iter' keylen' :=
    if pass' = pass ∧ passlen' = passlen ∧ salt' = salt ∧ saltlen' = saltlen ∧ iter' = iter ∧ keylen' = keylen then
      some out
    else none
  length_pbkdf2 pass' passlen' salt' saltlen' iter' keylen' out' h' := by
    split at h'
    · rename_i heq
      obtain ⟨-, -, -, -, -, rfl⟩ := heq
      cases h'
      exact h
    · cases h'

theorem only_eq_some {pass pass' : Str} {passlen saltlen iter keylen passlen' saltlen' iter' keylen' : ℤ}
    {salt salt' out out' : List UInt8} {h : out.length = keylen.toNat}
    (h' : (only pass passlen salt saltlen iter keylen out h).pbkdf2 pass' passlen' salt' saltlen' iter' keylen' =
      some out') : passlen' = passlen ∧ saltlen' = saltlen ∧ keylen' = keylen := by
  simp only [only] at h'
  split at h'
  · rename_i heq
    exact ⟨heq.2.1, heq.2.2.2.1, heq.2.2.2.2.2⟩
  · cases h'

theorem stoi_positiveDecimal (h : PositiveDecimal iterations) (hn : stoi iterations = .ok n) :
    n = Nat.ofDigitChars 10 iterations 0 := by
  rw [stoi_digits h.1 h.2.1] at hn
  split at hn
  · cases hn
  · exact (Except.ok.inj hn).symm

/-- Where the condition holds, a password that is accepted is the stored one. -/
theorem strict_of_sound (hsound : Sound password passwordHash) (openssl : Openssl) :
    ∃ b, verifyPassword openssl password passwordHash = .ok b ∧ (b = true → Strict openssl password passwordHash) := by
  cases hsplit : splitStored passwordHash with
  | none => exact ⟨false, by rw [verifyPassword, hsplit], by simp⟩
  | some parts =>
    obtain ⟨algo, iterations, saltHex, hashHex⟩ := parts
    obtain ⟨⟨n, hn⟩, htag⟩ := hsound _ _ _ _ hsplit
    by_cases halgo : algo = kAlgoTag
    · subst halgo
      obtain ⟨hsalt, hhash, hstrict⟩ := htag rfl
      obtain ⟨b, hb, htrue⟩ := verifyPassword_of_parts openssl password hsplit hn hsalt hhash
      refine ⟨b, hb, fun hbtrue => ?_⟩
      obtain ⟨out, hout, heq⟩ := htrue.1 hbtrue
      have hlength := openssl.length_pbkdf2 _ _ _ _ _ _ out hout
      obtain ⟨hcount, hexSalt, hexHash, hne, hpassword, hsaltSize, hhashSize⟩ :=
        hstrict ((writable_iff rfl).2 ⟨out, hlength, heq⟩)
      have hsaltBytes := length_hexPairs hsalt
      have hhashBytes := length_hexPairs hhash
      -- all three sizes are passed as they are, so that every byte of the hash was written
      have hkeylen : castInt (hexPairs hashHex).length = (hexPairs hashHex).length := castInt_eq (by omega)
      rw [hkeylen, Int.toNat_natCast] at hlength
      rw [hlength, Nat.sub_self, List.replicate_zero, List.append_nil] at heq
      rw [castInt_eq hpassword, castInt_eq (by omega), hkeylen, stoi_positiveDecimal hcount hn] at hout
      refine ⟨iterations, saltHex, hashHex, hexPairs saltHex, hexPairs hashHex, splitStored_eq hsplit, hcount,
        hexBytes_hexPairs hsalt hexSalt, hexBytes_hexPairs hhash hexHash, ?_, ?_⟩
      · intro hnil
        rw [hnil] at hhashBytes
        exact hne (List.length_eq_zero_iff.1 hhashBytes)
      · rw [hout, heq]
    · exact ⟨false, verifyPassword_other_tag hsplit hn halgo, by simp⟩

/-- The condition is met where every PBKDF2 is answered for. -/
theorem sound_of_strict (h : ∀ openssl : Openssl, ∃ b, verifyPassword openssl password passwordHash = .ok b ∧
    (b = true → Strict openssl password passwordHash)) : Sound password passwordHash := by
  intro algo iterations saltHex hashHex hsplit
  obtain ⟨b₀, hb₀, -⟩ := h lengthKeys
  obtain ⟨n, hn, heven⟩ := parts_of_ok hsplit hb₀
  refine ⟨⟨n, hn⟩, ?_⟩
  rintro rfl
  obtain ⟨hsalt, hhash⟩ := heven rfl
  refine ⟨hsalt, hhash, fun hwritable => ?_⟩
  -- a PBKDF2 that succeeds for this text and password, and nowhere else
  obtain ⟨out, hout, heq⟩ := (writable_iff rfl).1 hwritable
  let openssl := only password (castInt password.length) (hexPairs saltHex) (castInt (hexPairs saltHex).length) n
    (castInt (hexPairs hashHex).length) out hout
  have hanswer : openssl.pbkdf2 password (castInt password.length) (hexPairs saltHex)
      (castInt (hexPairs saltHex).length) n (castInt (hexPairs hashHex).length) = some out :=
    if_pos ⟨rfl, rfl, rfl, rfl, rfl, rfl⟩
  obtain ⟨b, hb, htrue⟩ := verifyPassword_of_parts openssl password hsplit hn hsalt hhash
  obtain ⟨b', hb', hstrict⟩ := h openssl
  obtain rfl : b = b' := Except.ok.inj (hb.symm.trans hb')
  obtain ⟨iterations', saltHex', hashHex', salt, hash, htext, hdecimal, hexSalt, hexHash, hne, hkey⟩ :=
    hstrict (htrue.2 ⟨out, hanswer, heq⟩)
  obtain ⟨hsaltLength, hsaltPairs, hsaltHex⟩ := hexSalt.spec
  obtain ⟨hhashLength, hhashPairs, hhashHex⟩ := hexHash.spec
  -- the text has these parts only
  rw [htext, splitStored_text (colon_not_mem_of_digits hdecimal.2.1) (colon_not_mem_of_isHex hsaltHex)] at hsplit
  obtain ⟨rfl, rfl, rfl⟩ : iterations' = iterations ∧ saltHex' = saltHex ∧ hashHex' = hashHex := by
    simpa using hsplit
  obtain ⟨hpassword, hsaltSize, hhashSize⟩ := only_eq_some hkey
  rw [hsaltPairs] at hsaltSize
  rw [hhashPairs] at hhashSize
  have hsmall := castInt_eq_iff.1 hpassword.symm
  have hsaltSmall := castInt_eq_iff.1 hsaltSize.symm
  have hhashSmall := castInt_eq_iff.1 hhashSize.symm
  refine ⟨hdecimal, hsaltHex, hhashHex, ?_, hsmall, by omega, by omega⟩
  rintro rfl
  exact hne (List.length_eq_zero_iff.1 (by simpa using hhashLength))

/-- **Verification is total and strict exactly where the condition holds**, whatever PBKDF2 computes: a boolean is
returned, and `true` only for a well-formed text whose hash is the PBKDF2 output for the password. -/
theorem total_and_strict_iff (password passwordHash : Str) :
    (∀ openssl : Openssl, ∃ b, verifyPassword openssl password passwordHash = .ok b ∧
        (b = true → Strict openssl password passwordHash)) ↔ Sound password passwordHash :=
  ⟨sound_of_strict, strict_of_sound⟩

/-- **Malformed texts are not rejected**: a count that is no number and an odd number of digits are exceptions, and
every password is accepted for an empty hash. -/
theorem malformed_not_rejected :
    verifyPassword lengthKeys "secret" "pbkdf2sha256:many:00:00" = .error "stoi" ∧
      verifyPassword lengthKeys "secret" "pbkdf2sha256:1:00:0" =
        .error "Invalid hex string" ∧
      verifyPassword lengthKeys "guess" "pbkdf2sha256:1::" = .ok true := by
  refine ⟨?_, ?_, ?_⟩ <;> decide +kernel

end UrlShortener.PasswordHasher
