import UrlShortener.Proof.Numerals
import UrlShortener.Spec.PasswordHasher

/-!
# Hashed passwords verify

* `fromHex_toHex`: bytes are read back from their digits.
* `difference_eq_zero_iff`: the comparison looks at every byte.
* `splitStored_stored`: the parts of a stored hash are found again.
* `verifyPassword_hashPassword`: **a password verifies against a hash exactly when its key is the one of the password
  that was hashed.**
-/

namespace UrlShortener.PasswordHasher

open Text

/-! ## Hexadecimal texts -/

theorem hexByte_all : ∀ n < 256, (hexByte (UInt8.ofNat n)).length = 2 ∧
    readHex (hexByte (UInt8.ofNat n)) = UInt8.ofNat n ∧ ':' ∉ hexByte (UInt8.ofNat n) := by
  decide +kernel

/-- **A byte is two digits**, which are read as the byte and are no colons. -/
theorem hexByte_spec (b : UInt8) : ∃ c d, hexByte b = [c, d] ∧ readHex [c, d] = b ∧ ':' ∉ hexByte b := by
  obtain ⟨hlength, hread, hcolon⟩ := hexByte_all b.toNat b.toNat_lt
  rw [UInt8.ofNat_toNat] at hlength hread hcolon
  obtain ⟨c, d, heq⟩ := List.length_eq_two.1 hlength
  rw [heq] at hread
  exact ⟨c, d, heq, hread, hcolon⟩

theorem hexPairs_toHex (data : List UInt8) : hexPairs (toHex data) = data := by
  induction data with
  | nil => rfl
  | cons b data ih =>
    obtain ⟨c, d, heq, hread, -⟩ := hexByte_spec b
    rw [toHex] at ih ⊢
    rw [List.flatMap_cons, heq, List.cons_append, List.singleton_append, hexPairs, hread, ih]

theorem length_toHex (data : List UInt8) : (toHex data).length = 2 * data.length := by
  induction data with
  | nil => rfl
  | cons b data ih =>
    obtain ⟨c, d, heq, -, -⟩ := hexByte_spec b
    rw [toHex] at ih ⊢
    rw [List.flatMap_cons, heq, List.length_append, ih, List.length_cons, List.length_cons, List.length_cons,
      List.length_nil]
    omega

/-- **Bytes are read back from their digits.** -/
theorem fromHex_toHex (data : List UInt8) : fromHex (toHex data) = .ok data := by
  rw [fromHex, length_toHex, if_neg (by omega), hexPairs_toHex]

theorem colon_not_mem_toHex (data : List UInt8) : ':' ∉ toHex data := by
  rw [toHex, List.mem_flatMap]
  rintro ⟨b, -, hmem⟩
  obtain ⟨c, d, -, -, hcolon⟩ := hexByte_spec b
  exact hcolon hmem

/-! ## The comparison -/

theorem foldl_difference_eq_zero_iff {a b : List UInt8} (h : a.length = b.length) (diff : UInt8) :
    (a.zip b).foldl (fun diff p => diff ||| (p.1 ^^^ p.2)) diff = 0 ↔ diff = 0 ∧ a = b := by
  induction a generalizing b diff with
  | nil =>
    obtain rfl : b = [] := List.length_eq_zero_iff.1 h.symm
    simp
  | cons x a ih =>
    cases b with
    | nil => cases h
    | cons y b =>
      rw [List.zip_cons_cons, List.foldl_cons, ih (Nat.succ.inj h), UInt8.or_eq_zero_iff, UInt8.xor_eq_zero_iff,
        List.cons.injEq, and_assoc]

/-- **The comparison finds no difference exactly where there is none.** -/
theorem difference_eq_zero_iff {a b : List UInt8} (h : a.length = b.length) : difference a b = 0 ↔ a = b := by
  rw [difference, foldl_difference_eq_zero_iff h]
  exact and_iff_right rfl

/-! ## The stored text -/

/-- What is stored for a salt and a hash. -/
def stored (salt hash : List UInt8) : Str :=
  kAlgoTag ++ ":" ++ (toString kIterations).toList ++ ":" ++ toHex salt ++ ":" ++ toHex hash

theorem splitStored_stored (salt hash : List UInt8) :
    splitStored (stored salt hash) = some (kAlgoTag, (toString kIterations).toList, toHex salt, toHex hash) := by
  have htext : stored salt hash =
      kAlgoTag ++ ':' :: ((toString kIterations).toList ++ ':' :: (toHex salt ++ ':' :: toHex hash)) := by
    have hcolon : ":" = [':'] := rfl
    rw [stored, hcolon]
    simp only [List.append_assoc, List.cons_append, List.nil_append]
  rw [htext, splitStored, cut_singleton (by decide)]
  simp only
  rw [cut_singleton (by decide)]
  simp only
  rw [cut_singleton (colon_not_mem_toHex salt)]

/-- Digits are read as the number they denote, if it fits. -/
theorem stoi_digits {ds : Str} (hne : ds ≠ []) (hds : ∀ c ∈ ds, c.isDigit = true) :
    stoi ds = if 2147483647 < (Nat.ofDigitChars 10 ds 0 : ℤ) then .error "stoi"
      else .ok (Nat.ofDigitChars 10 ds 0 : ℤ) := by
  rw [stoi, stoll_digits hne hds]
  by_cases h : 9223372036854775807 < (Nat.ofDigitChars 10 ds 0 : ℤ)
  · rw [if_pos h, if_pos (by omega)]
  · rw [if_neg h]
    simp only
    refine if_congr ?_ rfl rfl
    omega

theorem stoi_iterations : stoi (toString kIterations).toList = .ok kIterations := by
  rw [stoi, stoll_toString (by decide) (by decide)]
  rfl

theorem castInt_eq {n : ℕ} (h : n < 2 ^ 31) : castInt n = n := Int32.toInt_ofInt_of_le (by omega) (by omega)

/-- **The key of a password**: 32 bytes after 100000 iterations. -/
def Openssl.key (openssl : Openssl) (password : Str) (salt : List UInt8) : Option (List UInt8) :=
  openssl.pbkdf2 password password.length salt kSaltBytes kIterations kHashBytes

variable {openssl : Openssl} {password : Str} {salt : Salt}

theorem Openssl.length_key {out : List UInt8} (h : openssl.key password salt.1 = some out) : out.length = kHashBytes :=
  openssl.length_pbkdf2 _ _ _ _ _ _ out h

theorem hashPassword_eq (hpassword : password.length < 2 ^ 31) {hash : List UInt8}
    (h : openssl.key password salt.1 = some hash) :
    hashPassword openssl (some salt) password = .ok (stored salt.1 hash) := by
  rw [Openssl.key] at h
  rw [hashPassword, castInt_eq hpassword]
  simp only [h]
  rfl

/-- Verifying compares the key of the password with the stored one. -/
theorem verifyPassword_stored (hpassword : password.length < 2 ^ 31) {key hash : List UInt8}
    (hkey : openssl.key password salt.1 = some key) (hhash : hash.length = kHashBytes) :
    verifyPassword openssl password (stored salt.1 hash) = .ok (decide (key = hash)) := by
  have hlength : key.length = hash.length := (Openssl.length_key hkey).trans hhash.symm
  have hsalt : castInt salt.1.length = kSaltBytes := by
    rw [salt.2]
    rfl
  have hkeylen : castInt hash.length = kHashBytes := by
    rw [hhash]
    rfl
  rw [Openssl.key] at hkey
  rw [verifyPassword, splitStored_stored]
  simp only [stoi_iterations, fromHex_toHex, castInt_eq hpassword, bind, Except.bind, ne_eq, not_true_eq_false,
    if_false, hsalt, hkeylen, hkey, hlength, Nat.sub_self, List.replicate_zero, List.append_nil]
  refine congrArg Except.ok (Bool.eq_iff_iff.2 ?_)
  rw [beq_iff_eq, decide_eq_true_eq]
  exact difference_eq_zero_iff hlength

/-- **A password verifies against a hash exactly when its key is that of the password that was hashed.** -/
theorem verifyPassword_hashPassword (openssl : Openssl)
    (hnever : ∀ password (salt : Salt), (openssl.key password salt.1).isSome) (p q : Str) (hp : p.length < 2 ^ 31)
    (hq : q.length < 2 ^ 31) (salt : Salt) :
    ∃ text, hashPassword openssl (some salt) p = .ok text ∧
      verifyPassword openssl q text = .ok (decide (openssl.key q salt.1 = openssl.key p salt.1)) ∧
      verifyPassword openssl p text = .ok true := by
  obtain ⟨hash, hhash⟩ := Option.isSome_iff_exists.1 (hnever p salt)
  obtain ⟨key, hkey⟩ := Option.isSome_iff_exists.1 (hnever q salt)
  have hlength := Openssl.length_key hhash
  refine ⟨_, hashPassword_eq hp hhash, ?_, ?_⟩
  · rw [verifyPassword_stored hq hkey hlength, hkey, hhash]
    simp only [Option.some.injEq]
  · rw [verifyPassword_stored hp hhash hlength, decide_eq_true rfl]

/-- Keys that only depend on the length of the password. -/
def lengthKeys : Openssl where
  pbkdf2 pass _ _ _ _ keylen := some (List.replicate keylen.toNat (UInt8.ofNat pass.length))
  length_pbkdf2 _ _ _ _ _ _ out h := by
    obtain rfl := Option.some.inj h
    exact List.length_replicate

/-- A salt of zeros. -/
def zeroSalt : Salt := ⟨List.replicate 16 0, rfl⟩

theorem verifyPassword_hashPassword_sample :
    ∃ text, hashPassword lengthKeys (some zeroSalt) "secret" = .ok text ∧
      verifyPassword lengthKeys "guess" text =
        .ok (decide (lengthKeys.key "guess" zeroSalt.1 = lengthKeys.key "secret" zeroSalt.1)) ∧
      verifyPassword lengthKeys "secret" text = .ok true :=
  verifyPassword_hashPassword lengthKeys (fun _ _ => rfl) "secret" "guess" (by decide) (by decide)
    zeroSalt

end UrlShortener.PasswordHasher
