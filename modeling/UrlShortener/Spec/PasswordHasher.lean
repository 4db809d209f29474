import UrlShortener.Spec.Stats

/-!
# The password hasher

`security/password_hasher.cpp`. What is stored is `algo:iterations:saltHex:hashHex`. An exception is its text.
-/

namespace UrlShortener.PasswordHasher

open Text

/-- Bytes of a salt. -/
def kSaltBytes : ℕ := 16

/-- Bytes of a hash. -/
def kHashBytes : ℕ := 32

/-- Rounds of PBKDF2. -/
def kIterations : ℤ := 100000

/-- The first part of a hash text. -/
def kAlgoTag : Str := "pbkdf2sha256"

/-- `PKCS5_PBKDF2_HMAC` with SHA-256, a function of what it is given; `none` where it does not return 1. It writes as
many bytes as it is asked for. -/
structure Openssl where
  pbkdf2 : (pass : Str) → (passlen : ℤ) → (salt : List UInt8) → (saltlen iter keylen : ℤ) → Option (List UInt8)
  length_pbkdf2 : ∀ pass passlen salt saltlen iter keylen, ∀ out ∈ pbkdf2 pass passlen salt saltlen iter keylen,
    out.length = keylen.toNat

/-- `static_cast<int>` of a size. -/
def castInt (size : ℕ) : ℤ := (Int32.ofInt size).toInt

/-! ## Hexadecimal texts -/

/-- `oss << std::hex << std::setfill('0') << std::setw(2)` of a byte. -/
def hexByte (b : UInt8) : Str :=
  let digits := Nat.toDigits 16 b.toNat
  List.replicate (2 - digits.length) '0' ++ digits

/-- Two digits for each byte. -/
def toHex (data : List UInt8) : Str := data.flatMap hexByte

/-- The value of a digit, in either case. -/
def hexDigitValue (c : Char) : Option ℕ :=
  if '0' ≤ c ∧ c ≤ '9' then some (c.toNat - 48)
  else if 'a' ≤ c ∧ c ≤ 'f' then some (c.toNat - 87)
  else if 'A' ≤ c ∧ c ≤ 'F' then some (c.toNat - 55)
  else none

/-- The number that the leading digits denote, 0 if there are none. -/
def hexNumber (n : ℕ) : Str → ℕ
  | [] => n
  | c :: s =>
    match hexDigitValue c with
    | none => n
    | some d => hexNumber (16 * n + d) s

/-- The low byte of `val` after `std::istringstream(text) >> std::hex >> val`: blanks and a sign may come first, and a
negative number wraps around. Two characters leave no room for digits behind `0x`. -/
def readHex (text : Str) : UInt8 :=
  let signed := splitSign (text.dropWhile isSpace)
  let val := UInt8.ofNat (hexNumber 0 signed.2)
  if signed.1 then -val else val

/-- The bytes of the pairs. -/
def hexPairs : Str → List UInt8
  | c :: d :: hex => readHex [c, d] :: hexPairs hex
  | _ => []

/-- An odd length is refused. -/
def fromHex (hex : Str) : Except Str (List UInt8) :=
  if hex.length % 2 ≠ 0 then .error "Invalid hex string" else .ok (hexPairs hex)

/-! ## Hashing and verifying -/

/-- What `RAND_bytes` draws. -/
abbrev Salt := { bytes : List UInt8 // bytes.length = kSaltBytes }

/-- `hashPassword`; `none` is a failure of `RAND_bytes`. -/
def hashPassword (openssl : Openssl) (rand : Option Salt) (password : Str) : Except Str Str :=
  match rand with
  | none => .error "Failed to generate random salt"
  | some salt =>
    match openssl.pbkdf2 password (castInt password.length) salt.1 kSaltBytes kIterations kHashBytes with
    | none => .error "PBKDF2 hashing failed"
    | some hash =>
      .ok (kAlgoTag ++ ":" ++ (toString kIterations).toList ++ ":" ++ toHex salt.1 ++ ":" ++
        toHex hash)

/-- `std::stoi`: what is behind the number is not looked at. -/
def stoi (text : Str) : Except Str ℤ :=
  match stoll text with
  | none => .error "stoi"
  | some (value, _) => if value < -2147483648 ∨ 2147483647 < value then .error "stoi" else .ok value

/-- The loop of the comparison. -/
def difference (computed expectedHash : List UInt8) : UInt8 :=
  (computed.zip expectedHash).foldl (fun diff p => diff ||| (p.1 ^^^ p.2)) 0

/-- The texts between the first three colons, and the one behind them. -/
def splitStored (passwordHash : Str) : Option (Str × Str × Str × Str) :=
  match cut [':'] passwordHash with
  | none => none
  | some (algo, rest) =>
    match cut [':'] rest with
    | none => none
    | some (iterations, rest) =>
      match cut [':'] rest with
      | none => none
      | some (saltHex, hashHex) => some (algo, iterations, saltHex, hashHex)

/-- `verifyPassword`: the hash is made anew and compared. -/
def verifyPassword (openssl : Openssl) (password passwordHash : Str) : Except Str Bool :=
  match splitStored passwordHash with
  | none => .ok false
  | some (algo, iterationsText, saltHex, hashHex) => do
    -- the number is read before the tag is looked at
    let iterations ← stoi iterationsText
    if algo ≠ kAlgoTag then return false
    else
      let salt ← fromHex saltHex
      let expectedHash ← fromHex hashHex
      match openssl.pbkdf2 password (castInt password.length) salt (castInt salt.length) iterations
          (castInt expectedHash.length) with
      | none => return false
      | some bytes =>
        -- the vector has room for the hash, and holds zeros where nothing was written
        let computed := bytes ++ List.replicate (expectedHash.length - bytes.length) 0
        if computed.length ≠ expectedHash.length then return false
        else return difference computed expectedHash == 0

end UrlShortener.PasswordHasher
