import Mathlib.Data.List.Basic
import ByteMachine.Text.Hex

/-!
# Reading hexadecimal

Numbers in upper-case hexadecimal are read back exactly, however many digits they have, and a byte
always has two of them.

* `exists_of_mem_toDigits`, `eq_zero_of_head?_toDigits`: the digits of a number in some base.
* `Hex.digit?`, `Hex.number?`, `Hex.byte?`: digits, numbers and bytes as they are read.
* `Hex.IsUpper`, **`Hex.isUpper_upper`**: numbers in upper case.
* **`Hex.IsUpper.byte?_eq`**: bytes read back.
-/

namespace ByteMachine

/-! ## Digits -/

section Digits

variable {base n : Nat} (first : 1 < base) (last : base ≤ 16)
include first last

theorem exists_of_mem_toDigits {c : Char} (h : c ∈ Nat.toDigits base n) :
    ∃ d < 16, c = Nat.digitChar d := by
  induction n using Nat.strongRecOn with
  | ind n ih =>
    rw [Nat.toDigits_eq_if first] at h
    split_ifs at h with hn
    · exact ⟨n, Nat.lt_of_lt_of_le hn last, List.mem_singleton.mp h⟩
    · obtain h | h := List.mem_append.mp h
      · exact ih _ (Nat.div_lt_self (by omega) first) h
      · have small : n % base < base := Nat.mod_lt _ (by omega)
        exact ⟨n % base, Nat.lt_of_lt_of_le small last, List.mem_singleton.mp h⟩

theorem eq_zero_of_head?_toDigits (h : (Nat.toDigits base n).head? = some '0') : n = 0 := by
  have digit : ∀ n < 16, Nat.digitChar n = '0' → n = 0 := by decide
  induction n using Nat.strongRecOn with
  | ind n ih =>
    rw [Nat.toDigits_eq_if first] at h
    split_ifs at h with hn
    · exact digit n (Nat.lt_of_lt_of_le hn last) (Option.some.inj h)
    · -- the first digit of a longer number is that of the number without its last digit
      rw [List.head?_append_of_ne_nil _ Nat.toDigits_ne_nil] at h
      have quotient := ih _ (Nat.div_lt_self (by omega) first) h
      exact absurd (Nat.div_eq_zero_iff_lt (by omega) |>.mp quotient) hn

end Digits

namespace Hex

/-! ## Reading -/

/-- The value of an upper-case digit. -/
def digit? (c : Char) : Option Nat :=
  if '0' ≤ c ∧ c ≤ '9' then some (c.toNat - '0'.toNat)
  else if 'A' ≤ c ∧ c ≤ 'F' then some (c.toNat - 'A'.toNat + 10)
  else none

/-- The number that some digits make of the digits before them. -/
def numberFrom? (high : Nat) : List Char → Option Nat
  | [] => some high
  | c :: rest => (digit? c).bind fun d => numberFrom? (16 * high + d) rest

/-- The number that a text names in upper-case hexadecimal. -/
def number? (text : List Char) : Option Nat := if text = [] then none else numberFrom? 0 text

/-- The byte that a text names with two digits. -/
def byte? (text : List Char) : Option UInt8 :=
  if text.length = 2 then (number? text).map UInt8.ofNat else none

theorem numberFrom?_append (high : Nat) (text more : List Char) :
    numberFrom? high (text ++ more) = (numberFrom? high text).bind (numberFrom? · more) := by
  induction text generalizing high with
  | nil => rfl
  | cons c text ih => simp [numberFrom?, Option.bind_assoc, ih]

theorem numberFrom?_zeros (k : Nat) (text : List Char) :
    numberFrom? 0 (List.replicate k '0' ++ text) = numberFrom? 0 text := by
  induction k with
  | zero => rfl
  | succ k ih =>
    rw [List.replicate_succ, List.cons_append, numberFrom?]
    exact ih

theorem digit?_toUpper : ∀ d < 16, digit? (Nat.digitChar d).toUpper = some d := by decide

theorem numberFrom?_digits (n : Nat) : numberFrom? 0 ((digits n).map Char.toUpper) = some n := by
  unfold digits
  induction n using Nat.strongRecOn with
  | ind n ih =>
    rw [Nat.toDigits_eq_if (by decide)]
    split_ifs with hn
    · simp [numberFrom?, digit?_toUpper n hn]
    · have small : n % 16 < 16 := Nat.mod_lt _ (by decide)
      rw [List.map_append, numberFrom?_append, ih _ (Nat.div_lt_self (by omega) (by decide))]
      simp [numberFrom?, digit?_toUpper _ small, Nat.div_add_mod]

/-! ## Upper-case numbers -/

/-- **The text is the number in upper-case hexadecimal**, with as many digits as it takes, but at
least two. -/
structure IsUpper (text : List Char) (n : Nat) : Prop where
  digits : ∀ c ∈ text, (digit? c).isSome = true
  width : 2 ≤ text.length
  noLeadingZero : 2 < text.length → text.head? ≠ some '0'
  reads : number? text = some n

theorem IsUpper.not_mem {text : List Char} {n : Nat} (h : IsUpper text n) {c : Char}
    (hc : digit? c = none) : c ∉ text := by
  intro mem
  have digit := h.digits c mem
  rw [hc] at digit
  exact Bool.false_ne_true digit

theorem IsUpper.ne_nil {text : List Char} {n : Nat} (h : IsUpper text n) : text ≠ [] := by
  rintro rfl
  exact absurd h.width (by decide)

theorem toList_upper (n : Nat) :
    (upper n).toList =
      List.replicate (2 - (digits n).length) '0' ++ (digits n).map Char.toUpper := by
  simp [upper, List.leftpad]

theorem isSome_digit?_of_mem_upper {n : Nat} {c : Char} (h : c ∈ (upper n).toList) :
    (digit? c).isSome = true := by
  rw [toList_upper, List.mem_append, List.mem_map] at h
  obtain h | ⟨c, h, rfl⟩ := h
  · rw [List.eq_of_mem_replicate h]
    decide
  · obtain ⟨d, hd, rfl⟩ := exists_of_mem_toDigits (by decide) (by decide) h
    rw [digit?_toUpper d hd]
    rfl

theorem isUpper_upper (n : Nat) : IsUpper (upper n).toList n where
  digits _ h := isSome_digit?_of_mem_upper h
  width := by
    rw [toList_upper, List.length_append, List.length_replicate, List.length_map]
    omega
  noLeadingZero long := by
    intro h
    rw [toList_upper, List.length_append, List.length_replicate, List.length_map] at long
    have full : 2 - (Hex.digits n).length = 0 := by omega
    rw [toList_upper, full, List.replicate_zero, List.nil_append, List.head?_map,
      Option.map_eq_some_iff] at h
    obtain ⟨c, hc, h⟩ := h
    obtain ⟨d, hd, rfl⟩ := exists_of_mem_toDigits (by decide) (by decide) (List.mem_of_head? hc)
    have zero : ∀ d < 16, (Nat.digitChar d).toUpper = '0' → Nat.digitChar d = '0' := by decide
    rw [zero d hd h] at hc
    -- a number that begins with a zero is zero, which has one digit
    rw [eq_zero_of_head?_toDigits (by decide) (by decide) hc] at long
    exact absurd long (by decide)
  reads := by
    have filled : (upper n).toList ≠ [] := by
      rw [toList_upper]
      simp [Hex.digits, Nat.toDigits_ne_nil]
    rw [number?, if_neg filled, toList_upper, numberFrom?_zeros, numberFrom?_digits]

theorem length_upper (byte : UInt8) : (upper byte.toNat).toList.length = 2 := by
  have few : (Nat.toDigits 16 byte.toNat).length ≤ 2 :=
    (Nat.length_toDigits_le_iff (by decide) (by decide)).mpr byte.toNat_lt
  rw [toList_upper, List.length_append, List.length_replicate, List.length_map, digits]
  omega

/-- **A byte is read back** from two digits. -/
theorem IsUpper.byte?_eq {text : List Char} {byte : UInt8} (h : IsUpper text byte.toNat)
    (two : text.length = 2) : byte? text = some byte := by
  rw [byte?, if_pos two, h.reads, Option.map_some, UInt8.ofNat_toNat]

end Hex

end ByteMachine
