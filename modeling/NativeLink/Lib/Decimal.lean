import Mathlib

-- Decimal integers as text: Rust's `str::parse` of an integer type, and `format!("{}", n)`, which
-- is `Nat.toDigits 10 n`. The parse follows `from_str_radix`: an optional sign, then at least one
-- digit, each step checked against the type's bound; a failure is an `IntErrorKind`, the first one
-- met from the left. Parsing what was formatted gives the number back.

namespace Decimal

-- `core::num::IntErrorKind`.
inductive IntErrorKind
  | empty
  | invalidDigit
  | posOverflow
  | negOverflow
  deriving DecidableEq, Repr

-- `impl Display for ParseIntError`.
def IntErrorKind.description : IntErrorKind → String
  | .empty => "cannot parse integer from empty string"
  | .invalidDigit => "invalid digit found in string"
  | .posOverflow => "number too large to fit in target type"
  | .negOverflow => "number too small to fit in target type"

-- `impl Debug for ParseIntError`.
def IntErrorKind.debug : IntErrorKind → String
  | .empty => "ParseIntError \x7b kind: Empty \x7d"
  | .invalidDigit => "ParseIntError \x7b kind: InvalidDigit \x7d"
  | .posOverflow => "ParseIntError \x7b kind: PosOverflow \x7d"
  | .negOverflow => "ParseIntError \x7b kind: NegOverflow \x7d"

-- The value of a decimal digit.
def digitValue (c : Char) : Option Nat :=
  if c.isDigit then some (c.toNat - '0'.toNat) else none

-- The digits `cs`, most significant first, after the value `acc`, each step kept within `bound`;
-- `overflow` is the failure when a step passes it.
def accumulate (bound : Nat) (overflow : IntErrorKind) (acc : Nat) : List Char → Except IntErrorKind Nat
  | [] => .ok acc
  | c :: cs =>
    match digitValue c with
    | some d => if acc * 10 + d ≤ bound then accumulate bound overflow (acc * 10 + d) cs else .error overflow
    | none => .error .invalidDigit

-- `str::parse` of an unsigned integer type whose largest value is `max`.
def parseUnsigned (max : Nat) : List Char → Except IntErrorKind Nat
  | [] => .error .empty
  | ['+'] | ['-'] => .error .invalidDigit
  | '+' :: digits => accumulate max .posOverflow 0 digits
  | digits => accumulate max .posOverflow 0 digits

-- `str::parse` of a signed integer type whose largest value is `max`: a `-` reaches `max + 1` below
-- zero.
def parseSigned (max : Nat) : List Char → Except IntErrorKind Int
  | [] => .error .empty
  | ['+'] | ['-'] => .error .invalidDigit
  | '-' :: digits => (accumulate (max + 1) .negOverflow 0 digits).map fun n => -(n : Int)
  | '+' :: digits => (accumulate max .posOverflow 0 digits).map fun n => (n : Int)
  | digits => (accumulate max .posOverflow 0 digits).map fun n => (n : Int)

theorem digitValue_digitChar {d : Nat} (h : d < 10) : digitValue (Nat.digitChar d) = some d := by
  simp [digitValue, h, Nat.toNat_digitChar_sub_48_of_lt_ten h]

theorem accumulate_append (bound : Nat) (overflow : IntErrorKind) (acc : Nat) (l₁ l₂ : List Char) :
    accumulate bound overflow acc (l₁ ++ l₂) =
      (accumulate bound overflow acc l₁).bind fun v => accumulate bound overflow v l₂ := by
  induction l₁ generalizing acc with
  | nil => rfl
  | cons c cs ih =>
    simp only [List.cons_append, accumulate]
    cases digitValue c with
    | none => rfl
    | some d =>
      dsimp only
      split
      case isTrue => exact ih _
      case isFalse => rfl

/-! ## What a parse accepts -/

theorem isDigit_of_digitValue {c : Char} {d : Nat} (h : digitValue c = some d) : c.isDigit = true := by
  unfold digitValue at h
  split at h
  case isTrue hc => exact hc
  case isFalse => cases h

theorem isDigit_of_accumulate {bound : Nat} {overflow : IntErrorKind} :
    ∀ {acc n : Nat} {cs : List Char}, accumulate bound overflow acc cs = .ok n → ∀ c ∈ cs, c.isDigit = true
  | _, _, [], _, c, hc => absurd hc List.not_mem_nil
  | acc, n, d :: ds, h, c, hc => by
    unfold accumulate at h
    split at h
    case h_1 v hv =>
      split at h
      case isTrue =>
        rcases List.mem_cons.mp hc with rfl | hc
        case inl => exact isDigit_of_digitValue hv
        case inr => exact isDigit_of_accumulate h c hc
      case isFalse => cases h
    case h_2 => cases h

theorem parseUnsigned_ok {max n : Nat} {cs : List Char} (h : parseUnsigned max cs = .ok n) :
    cs ≠ [] ∧ ∀ c ∈ cs, c.isDigit = true ∨ c = '+' := by
  unfold parseUnsigned at h
  split at h
  case h_1 => cases h
  case h_2 => cases h
  case h_3 => cases h
  case h_4 digits =>
    refine ⟨List.cons_ne_nil _ _, fun c hc => ?_⟩
    rcases List.mem_cons.mp hc with rfl | hc
    case inl => exact .inr rfl
    case inr => exact .inl (isDigit_of_accumulate h c hc)
  case h_5 hnil _ _ _ => exact ⟨hnil, fun c hc => .inl (isDigit_of_accumulate h c hc)⟩

/-! ## Parsing what was formatted -/

theorem accumulate_toDigits {bound : Nat} (overflow : IntErrorKind) {n : Nat} (h : n ≤ bound) :
    accumulate bound overflow 0 (Nat.toDigits 10 n) = .ok n := by
  induction n using Nat.strong_induction_on with
  | _ n ih =>
    by_cases hn : n < 10
    case pos => simp [Nat.toDigits_of_lt_base hn, accumulate, digitValue_digitChar hn, h]
    case neg =>
      have hstep : n / 10 * 10 + n % 10 = n := by omega
      rw [Nat.toDigits_of_base_le (by decide) (by omega), accumulate_append, ih (n / 10) (by omega) (by omega)]
      simp only [Except.bind, accumulate, digitValue_digitChar (Nat.mod_lt n (by decide)), hstep, if_pos h]

theorem not_mem_toDigits_of_not_isDigit {c : Char} (hc : c.isDigit = false) (n : Nat) :
    c ∉ Nat.toDigits 10 n := fun hmem => by
  rw [Nat.isDigit_of_mem_toDigits (by decide) (by decide) hmem] at hc
  cases hc

theorem parseUnsigned_toDigits {max n : Nat} (h : n ≤ max) : parseUnsigned max (Nat.toDigits 10 n) = .ok n := by
  have hne : Nat.toDigits 10 n ≠ [] := List.ne_nil_of_length_pos Nat.length_toDigits_pos
  unfold parseUnsigned
  split
  case h_1 hnil => exact absurd hnil hne
  case h_2 heq => exact absurd (heq ▸ List.mem_cons_self) (not_mem_toDigits_of_not_isDigit rfl n)
  case h_3 heq => exact absurd (heq ▸ List.mem_cons_self) (not_mem_toDigits_of_not_isDigit rfl n)
  case h_4 heq => exact absurd (heq ▸ List.mem_cons_self) (not_mem_toDigits_of_not_isDigit rfl n)
  case h_5 => exact accumulate_toDigits _ h

theorem parseSigned_toDigits {max n : Nat} (h : n ≤ max) : parseSigned max (Nat.toDigits 10 n) = .ok (n : Int) := by
  have hne : Nat.toDigits 10 n ≠ [] := List.ne_nil_of_length_pos Nat.length_toDigits_pos
  unfold parseSigned
  split
  case h_1 hnil => exact absurd hnil hne
  case h_2 heq => exact absurd (heq ▸ List.mem_cons_self) (not_mem_toDigits_of_not_isDigit rfl n)
  case h_3 heq => exact absurd (heq ▸ List.mem_cons_self) (not_mem_toDigits_of_not_isDigit rfl n)
  case h_4 heq => exact absurd (heq ▸ List.mem_cons_self) (not_mem_toDigits_of_not_isDigit rfl n)
  case h_5 heq => exact absurd (heq ▸ List.mem_cons_self) (not_mem_toDigits_of_not_isDigit rfl n)
  case h_6 => rw [accumulate_toDigits _ h]; rfl

end Decimal
