import NativeLink.Util.StoreTrait
import NativeLink.Lib.Decimal
import NativeLink.Lib.Text

-- Model of the text form of `DigestInfo` in `nativelink-util/src/common.rs`, `{hash}-{size}`:
-- `DigestStackStringifier` writes it for `Serialize` and `Display`, the `Deserialize` visitor reads
-- it, and `digest_from_filename` in `nativelink-store/src/filesystem_store.rs` reads it back from
-- the name of a content file. The 32 bytes of `PackedHash` are the model's `packedHash`, most
-- significant byte first, so its hex is the 64 hex digits of that number. The hex crate decodes the
-- bytes of the text; the model decodes its characters, which is the same for ASCII text.

namespace NativeLink

def i64Max : Nat := 2 ^ 63 - 1

theorem le_u64Max_of_le_i64Max {n : Nat} (h : n ≤ i64Max) : n ≤ u64Max := by
  unfold i64Max at h
  unfold u64Max
  omega

-- `count_digits`: divide by ten until nothing is left, counting the steps. There are at most
-- `num` of them.
def countDigitsLoop : Nat → Nat → Nat → Nat
  | 0, _, count => count
  | fuel + 1, num, count => if num = 0 then count else countDigitsLoop fuel (num / 10) (count + 1)

def countDigits (num : Nat) : Nat :=
  countDigitsLoop num num 0

namespace PackedHash

def sizeOfPackedHash : Nat := 32

-- The last `k` hex digits of `n`, most significant first: `hex::encode` writes each byte as its
-- high and then its low digit.
def hexDigits : Nat → Nat → List Char
  | 0, _ => []
  | k + 1, n => hexDigits k (n / 16) ++ [Nat.digitChar (n % 16)]

-- `PackedHash::to_hex`.
def toHex (packedHash : Nat) : List Char :=
  hexDigits (sizeOfPackedHash * 2) packedHash

-- `hex::FromHexError`.
inductive FromHexError
  | invalidHexCharacter (c : Char) (index : Nat)
  | oddLength
  | invalidStringLength
  deriving DecidableEq, Repr

-- Its `Debug` text, for a printable character.
def FromHexError.debug : FromHexError → String
  | .invalidHexCharacter c index =>
    "InvalidHexCharacter \x7b c: '" ++ c.toString ++ "', index: " ++ toString index ++ " \x7d"
  | .oddLength => "OddLength"
  | .invalidStringLength => "InvalidStringLength"

-- `val` of the hex crate.
def hexValue (c : Char) : Option Nat :=
  if 'A' ≤ c ∧ c ≤ 'F' then some (c.toNat - 'A'.toNat + 10)
  else if 'a' ≤ c ∧ c ≤ 'f' then some (c.toNat - 'a'.toNat + 10)
  else if '0' ≤ c ∧ c ≤ '9' then some (c.toNat - '0'.toNat)
  else none

-- The digits from `index` on, after the value `acc`.
def readHex (acc index : Nat) : List Char → Except FromHexError Nat
  | [] => .ok acc
  | c :: cs =>
    match hexValue c with
    | some v => readHex (acc * 16 + v) (index + 1) cs
    | none => .error (.invalidHexCharacter c index)

-- `hex::decode_to_slice` into the 32 bytes of a `PackedHash`.
def decodeToSlice (hash : List Char) : Except FromHexError Nat :=
  if hash.length % 2 ≠ 0 then .error .oddLength
  else if hash.length / 2 ≠ sizeOfPackedHash then .error .invalidStringLength
  else readHex 0 0 hash

-- `PackedHash::from_hex`.
def fromHex (hash : List Char) : Except Error Nat :=
  match decodeToSlice hash with
  | .ok packedHash => .ok packedHash
  | .error e =>
    let hashStr := String.ofList hash
    let debug := e.debug
    .error (makeInputErr s!"Invalid sha256 hash: {hashStr} - {debug}")

/-! ## Hex digits read back -/

theorem length_hexDigits : ∀ (k n : Nat), (hexDigits k n).length = k
  | 0, _ => rfl
  | k + 1, n => by rw [hexDigits, List.length_append, length_hexDigits k, List.length_singleton]

theorem hexValue_digitChar : ∀ d < 16, hexValue (Nat.digitChar d) = some d := by
  decide

theorem mem_hexDigits : ∀ {k n : Nat} {c : Char}, c ∈ hexDigits k n → ∃ d < 16, c = Nat.digitChar d
  | 0, _, _, h => absurd h List.not_mem_nil
  | k + 1, n, c, h => by
    rw [hexDigits, List.mem_append, List.mem_singleton] at h
    rcases h with h | rfl
    case inl => exact mem_hexDigits h
    case inr => exact ⟨n % 16, Nat.mod_lt n (by decide), rfl⟩

theorem hyphen_not_mem_hexDigits (k n : Nat) : '-' ∉ hexDigits k n := fun h => by
  obtain ⟨d, hd, heq⟩ := mem_hexDigits h
  have hne : ∀ d < 16, Nat.digitChar d ≠ '-' := by decide
  exact hne d hd heq.symm

theorem readHex_append (acc index : Nat) (l₁ l₂ : List Char) :
    readHex acc index (l₁ ++ l₂) = (readHex acc index l₁).bind fun v => readHex v (index + l₁.length) l₂ := by
  induction l₁ generalizing acc index with
  | nil => rfl
  | cons c cs ih =>
    simp only [List.cons_append, readHex, List.length_cons]
    cases hexValue c with
    | none => rfl
    | some v =>
      dsimp only
      rw [ih, Nat.add_assoc, Nat.add_comm 1]

theorem readHex_hexDigits : ∀ (k n index : Nat), readHex 0 index (hexDigits k n) = .ok (n % 16 ^ k)
  | 0, n, _ => by simp [hexDigits, readHex, Nat.mod_one]
  | k + 1, n, index => by
    have hlow : n / 16 % 16 ^ k * 16 + n % 16 = n % 16 ^ (k + 1) := by
      rw [Nat.pow_succ', Nat.mod_mul]
      omega
    rw [hexDigits, readHex_append, readHex_hexDigits k (n / 16) index]
    simp only [Except.bind, readHex, hexValue_digitChar (n % 16) (Nat.mod_lt n (by decide)), hlow]

theorem decodeToSlice_toHex {packedHash : Nat} (h : packedHash < 2 ^ 256) :
    decodeToSlice (toHex packedHash) = .ok packedHash := by
  have hlen : (toHex packedHash).length = 64 := length_hexDigits _ _
  have hmod : packedHash % 16 ^ 64 = packedHash := Nat.mod_eq_of_lt (by simpa using h)
  rw [decodeToSlice, hlen, if_neg (by decide), if_neg (by decide), toHex, readHex_hexDigits, sizeOfPackedHash, hmod]

theorem fromHex_toHex {packedHash : Nat} (h : packedHash < 2 ^ 256) :
    fromHex (toHex packedHash) = .ok packedHash := by
  rw [fromHex, decodeToSlice_toHex h]

theorem hexValue_lt {c : Char} {d : Nat} (h : hexValue c = some d) : d < 16 := by
  have hA : 'A'.toNat = 65 := rfl
  have ha : 'a'.toNat = 97 := rfl
  have h0 : '0'.toNat = 48 := rfl
  unfold hexValue at h
  simp only [Char.le_def, UInt32.le_iff_toNat_le, Char.toNat_val] at h
  split at h
  case isTrue hc => injection h with h; simp at hc; omega
  case isFalse =>
    split at h
    case isTrue hc => injection h with h; simp at hc; omega
    case isFalse =>
      split at h
      case isTrue hc => injection h with h; simp at hc; omega
      case isFalse => cases h

theorem readHex_lt : ∀ {acc index : Nat} {l : List Char} {v : Nat},
    readHex acc index l = .ok v → v < (acc + 1) * 16 ^ l.length
  | acc, _, [], v, h => by
    simp only [readHex, Except.ok.injEq] at h
    simp [h]
  | acc, index, c :: cs, v, h => by
    simp only [readHex] at h
    split at h
    case h_1 d hd =>
      have hd16 := hexValue_lt hd
      calc v < (acc * 16 + d + 1) * 16 ^ cs.length := readHex_lt h
        _ ≤ (acc + 1) * 16 * 16 ^ cs.length := Nat.mul_le_mul_right _ (by omega)
        _ = (acc + 1) * 16 ^ (c :: cs).length := by
          rw [List.length_cons, Nat.pow_succ', Nat.mul_assoc]
    case h_2 => cases h

theorem decodeToSlice_lt {hash : List Char} {packedHash : Nat} (h : decodeToSlice hash = .ok packedHash) :
    packedHash < 2 ^ 256 := by
  unfold decodeToSlice at h
  split at h
  case isTrue => cases h
  case isFalse hodd =>
    split at h
    case isTrue => cases h
    case isFalse hlen =>
      have hv := readHex_lt h
      have h64 : hash.length = 64 := by simp [sizeOfPackedHash] at hlen; omega
      rw [h64] at hv
      simpa using hv

theorem fromHex_lt {hash : List Char} {packedHash : Nat} (h : fromHex hash = .ok packedHash) :
    packedHash < 2 ^ 256 := by
  unfold fromHex at h
  split at h
  case h_1 heq => cases h; exact decodeToSlice_lt heq
  case h_2 => cases h

end PackedHash

namespace DigestInfo

-- `DigestInfo::try_new(hash, size_bytes)`, for a size of any integer type.
def tryNew (hash : List Char) (sizeBytes : Int) : Except Error DigestInfo :=
  let hashStr := String.ofList hash
  match PackedHash.fromHex hash with
  | .error e => .error (e.append s!"Invalid sha256 hash: {hashStr}")
  | .ok packedHash =>
    if sizeBytes < 0 then .error (makeInputErr s!"Could not convert {sizeBytes} into u64")
    else
      let size := sizeBytes.toNat
      let max := i64Max
      if size > max then .error (makeInputErr s!"Size bytes is too large: {size} - max: {max}")
      else .ok ⟨packedHash, size⟩

-- The buffer of `DigestStackStringifier`: the hex of the hash, the digits of `u64::MAX` and the
-- hyphen.
def stringifierBufLen : Nat :=
  PackedHash.sizeOfPackedHash * 2 + countDigits u64Max + 1

-- `DigestStackStringifier::as_str`: the hex, the hyphen the buffer was filled with, and the size,
-- which must fit in what is left of the buffer.
def asStr (d : DigestInfo) : Except Error String :=
  let hex := PackedHash.toHex d.packedHash
  let size := Nat.toDigits 10 d.sizeBytes
  if hex.length + 1 + size.length ≤ stringifierBufLen then .ok (String.ofList (hex ++ '-' :: size))
  else .error (Error.new .internal "Could not write size_bytes to buffer")

-- `visit_str` of the `Deserialize` visitor; its errors are serde's custom messages, the last one
-- without the `Debug` text of the `Error` it wraps.
def visitStr (s : List Char) : Except String DigestInfo :=
  match Text.splitOnce '-' s with
  | none => .error "Invalid DigestInfo format, expected '-' separator"
  | some (hash, size) =>
    match Decimal.parseUnsigned u64Max size with
    | .error e =>
      let debug := e.debug
      .error s!"Could not parse size_bytes: {debug}"
    | .ok sizeBytes =>
      match tryNew hash sizeBytes with
      | .ok d => .ok d
      | .error _ => .error "Could not create DigestInfo"

/-! ## The text form read back -/

-- The text `as_str` writes: the hex of the hash, a hyphen and the decimal size.
def text (d : DigestInfo) : List Char :=
  PackedHash.toHex d.packedHash ++ '-' :: Nat.toDigits 10 d.sizeBytes

theorem countDigits_u64Max : countDigits u64Max = 20 := by
  decide

theorem asStr_eq {d : DigestInfo} (h : d.sizeBytes ≤ u64Max) : asStr d = .ok (String.ofList d.text) := by
  have hsize : (Nat.toDigits 10 d.sizeBytes).length ≤ 20 :=
    Nat.toDigits_length 10 d.sizeBytes 20 (by decide) (by unfold u64Max at h; omega)
  have hfits : (PackedHash.toHex d.packedHash).length + 1 + (Nat.toDigits 10 d.sizeBytes).length ≤
      stringifierBufLen := by
    rw [PackedHash.toHex, PackedHash.length_hexDigits, stringifierBufLen, countDigits_u64Max]
    simp only [PackedHash.sizeOfPackedHash]
    omega
  rw [asStr, if_pos hfits, text]

theorem tryNew_toHex {packedHash sizeBytes : Nat} (hhash : packedHash < 2 ^ 256) (hsize : sizeBytes ≤ i64Max) :
    tryNew (PackedHash.toHex packedHash) sizeBytes = .ok ⟨packedHash, sizeBytes⟩ := by
  simp only [tryNew, PackedHash.fromHex_toHex hhash, Int.toNat_natCast]
  rw [if_neg (by omega), if_neg (by omega)]

theorem tryNew_bounds {hash : List Char} {sizeBytes : Int} {d : DigestInfo} (h : tryNew hash sizeBytes = .ok d) :
    d.packedHash < 2 ^ 256 ∧ d.sizeBytes ≤ i64Max := by
  unfold tryNew at h
  split at h
  case h_1 => cases h
  case h_2 packedHash hhex =>
    simp only at h
    split at h
    case isTrue => cases h
    case isFalse =>
      split at h
      case isTrue => cases h
      case isFalse hmax =>
        cases h
        refine ⟨PackedHash.fromHex_lt hhex, ?_⟩
        dsimp only
        omega

theorem splitOnce_text (d : DigestInfo) :
    Text.splitOnce '-' d.text = some (PackedHash.toHex d.packedHash, Nat.toDigits 10 d.sizeBytes) :=
  Text.splitOnce_append (PackedHash.hyphen_not_mem_hexDigits _ _)

theorem visitStr_text {d : DigestInfo} (hhash : d.packedHash < 2 ^ 256) (hsize : d.sizeBytes ≤ i64Max) :
    visitStr d.text = .ok d := by
  have hu64 := le_u64Max_of_le_i64Max hsize
  rw [visitStr, splitOnce_text]
  dsimp only
  rw [Decimal.parseUnsigned_toDigits hu64]
  simp only [tryNew_toHex hhash hsize]

theorem visitStr_bounds {s : List Char} {d : DigestInfo} (h : visitStr s = .ok d) :
    d.packedHash < 2 ^ 256 ∧ d.sizeBytes ≤ i64Max := by
  unfold visitStr at h
  split at h
  case h_1 => cases h
  case h_2 hash size _ =>
    split at h
    case h_1 => cases h
    case h_2 sizeBytes _ =>
      split at h
      case h_1 d' hnew => cases h; exact tryNew_bounds hnew
      case h_2 => cases h

end DigestInfo

end NativeLink
