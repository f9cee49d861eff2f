/-
RouteRegistry/Text/Hex.lean

Hexadecimal numbers as text.  What `hex4` writes, `hexNumber?` reads back
(`hexNumber?_hex4`).
-/

namespace RouteRegistry

/-- The value of a hexadecimal digit of either case. -/
def hexValue? (c : Char) : Option Nat :=
  let n := c.toNat
  if 0x30 ≤ n ∧ n ≤ 0x39 then some (n - 0x30)
  else if 0x61 ≤ n ∧ n ≤ 0x66 then some (n - 0x61 + 10)
  else if 0x41 ≤ n ∧ n ≤ 0x46 then some (n - 0x41 + 10)
  else none

/-- The number that the hexadecimal digits write, most significant first. -/
def hexNumber? (digits : List Char) : Option Nat :=
  digits.foldlM (fun acc c => (hexValue? c).map (16 * acc + ·)) 0

/-- The lower-case hexadecimal digit of a number below sixteen. -/
def hexDigit (n : Nat) : Char := if n < 10 then Char.ofNat (0x30 + n) else Char.ofNat (0x57 + n)

/-- The four lower-case hexadecimal digits of a number below 65536. -/
def hex4 (n : Nat) : List Char :=
  [hexDigit (n / 4096 % 16), hexDigit (n / 256 % 16), hexDigit (n / 16 % 16), hexDigit (n % 16)]

/-- Digits below sixteen are read back. -/
theorem hexValue?_hexDigit : ∀ n < 16, hexValue? (hexDigit n) = some n := by decide

/-- A number of four digits is read back. -/
theorem hexNumber?_hex4 {n : Nat} (h : n < 65536) : hexNumber? (hex4 n) = some n := by
  have value (m : Nat) : hexValue? (hexDigit (m % 16)) = some (m % 16) :=
    hexValue?_hexDigit _ (Nat.mod_lt _ (by decide))
  simp only [hexNumber?, hex4, List.foldlM_cons, List.foldlM_nil, value, Option.map_some,
    Option.bind_eq_bind, Option.bind_some, Option.pure_def]
  congr 1
  omega

/-- A number of four digits is written with nothing else. -/
theorem mem_hex4 {n : Nat} {x : Char} (h : x ∈ hex4 n) : ∃ d < 16, x = hexDigit d := by
  simp only [hex4, List.mem_cons, List.not_mem_nil, or_false] at h
  rcases h with rfl | rfl | rfl | rfl
  all_goals exact ⟨_, Nat.mod_lt _ (by decide), rfl⟩

end RouteRegistry
