import Mathlib.Control.Basic
import SignOn.Text.Symbols

/-! # Texts as bytes

The bytes of a text are read as its characters: `symbolsOfBytes_encode` for one character, whichever number of
bytes it takes, and `symbolsOfBytes_toUTF8` for a text. -/

namespace SignOn.Text

/-! ### Sequences of bytes -/

section

variable {a b b' b'' : UInt8} {c : Char} {n x y z : Nat} {rest : List UInt8}

theorem symbolsOfBytes_one (ha : a.toNat < 0x80) :
    symbolsOfBytes (a :: rest) = some (Char.ofNat a.toNat) :: symbolsOfBytes rest := by
  rw [symbolsOfBytes.eq_def]
  simp [ha]

theorem symbolsOfBytes_two (ha : ¬ a.toNat < 0x80) (h : symbolsOfBytes.two a.toNat b = some c) :
    symbolsOfBytes (a :: b :: rest) = some c :: symbolsOfBytes rest := by
  rw [symbolsOfBytes.eq_def]
  rcases rest with _ | ⟨_, _ | ⟨_, _⟩⟩ <;> simp [ha, h, symbolsOfBytes]

theorem symbolsOfBytes_three (ha : ¬ a.toNat < 0x80) (h2 : symbolsOfBytes.two a.toNat b = none)
    (h : symbolsOfBytes.three a.toNat b b' = some c) :
    symbolsOfBytes (a :: b :: b' :: rest) = some c :: symbolsOfBytes rest := by
  rw [symbolsOfBytes.eq_def]
  rcases rest with _ | ⟨_, _⟩ <;> simp [ha, h2, h, symbolsOfBytes]

theorem symbolsOfBytes_four (ha : ¬ a.toNat < 0x80) (h2 : symbolsOfBytes.two a.toNat b = none)
    (h3 : symbolsOfBytes.three a.toNat b b' = none) (h : symbolsOfBytes.four a.toNat b b' b'' = some c) :
    symbolsOfBytes (a :: b :: b' :: b'' :: rest) = some c :: symbolsOfBytes rest := by
  rw [symbolsOfBytes.eq_def]
  simp [ha, h2, h3, h]

theorem two_eq (hn : n / 32 = 6) (hb : tailBits b = some x) :
    symbolsOfBytes.two n b = sequenceChar 0x80 (n % 32 * 64 + x) := by
  rw [symbolsOfBytes.two, guard, if_pos hn]
  simp [hb]

theorem two_eq_none (hn : n / 32 ≠ 6) : symbolsOfBytes.two n b = none := by
  rw [symbolsOfBytes.two, guard, if_neg hn]
  rfl

theorem three_eq (hn : n / 16 = 14) (hb : tailBits b = some x) (hb' : tailBits b' = some y) :
    symbolsOfBytes.three n b b' = sequenceChar 0x800 ((n % 16 * 64 + x) * 64 + y) := by
  rw [symbolsOfBytes.three, guard, if_pos hn]
  simp [hb, hb']

theorem three_eq_none (hn : n / 16 ≠ 14) : symbolsOfBytes.three n b b' = none := by
  rw [symbolsOfBytes.three, guard, if_neg hn]
  rfl

theorem four_eq (hn : n / 8 = 30) (hb : tailBits b = some x) (hb' : tailBits b' = some y)
    (hb'' : tailBits b'' = some z) :
    symbolsOfBytes.four n b b' b'' = sequenceChar 0x10000 (((n % 8 * 64 + x) * 64 + y) * 64 + z) := by
  rw [symbolsOfBytes.four, guard, if_pos hn]
  simp [hb, hb', hb'']

end

/-! ### Characters and texts -/

theorem toNat_ofNat_of_lt {n : Nat} (h : n < 256) : (UInt8.ofNat n).toNat = n := by
  rw [UInt8.toNat_ofNat', Nat.mod_eq_of_lt h]

theorem tailBits_ofNat (n : Nat) : tailBits (UInt8.ofNat (n % 64 + 128)) = some (n % 64) := by
  have hn : (UInt8.ofNat (n % 64 + 128)).toNat = n % 64 + 128 := toNat_ofNat_of_lt (by omega)
  have hhigh : (n % 64 + 128) / 64 = 2 := by omega
  have hlow : (n % 64 + 128) % 64 = n % 64 := by omega
  rw [tailBits, hn, if_pos hhigh, hlow]

theorem sequenceChar_toNat {low n : Nat} {c : Char} (hn : n = c.toNat) (h : low ≤ c.toNat) :
    sequenceChar low n = some c := by
  rw [hn, sequenceChar, if_pos ⟨h, c.valid⟩, Char.ofNat_toNat]

/-- The bytes of a character are read as that character. -/
theorem symbolsOfBytes_encode (c : Char) (rest : List UInt8) :
    symbolsOfBytes (String.utf8EncodeChar c ++ rest) = some c :: symbolsOfBytes rest := by
  have hv : c.val.toNat = c.toNat := rfl
  have htop : c.toNat < 0x110000 := by
    rcases c.valid with h | ⟨-, h⟩
    · exact Nat.lt_trans h (by decide)
    · exact h
  unfold String.utf8EncodeChar
  rw [hv]
  dsimp only
  by_cases h1 : c.toNat ≤ 127
  · rw [if_pos h1]
    have hn := toNat_ofNat_of_lt (n := c.toNat) (by omega)
    have hone : symbolsOfBytes (UInt8.ofNat c.toNat :: rest) = _ := symbolsOfBytes_one (by omega)
    rwa [hn, Char.ofNat_toNat] at hone
  rw [if_neg h1]
  by_cases h2 : c.toNat ≤ 2047
  · rw [if_pos h2]
    have hn := toNat_ofNat_of_lt (n := c.toNat / 64 % 32 + 192) (by omega)
    apply symbolsOfBytes_two (by omega)
    rw [hn, two_eq (by omega) (tailBits_ofNat _)]
    exact sequenceChar_toNat (by omega) (by omega)
  rw [if_neg h2]
  by_cases h3 : c.toNat ≤ 65535
  · rw [if_pos h3]
    have hn := toNat_ofNat_of_lt (n := c.toNat / 4096 % 16 + 224) (by omega)
    apply symbolsOfBytes_three (by omega) (two_eq_none (by omega))
    rw [hn, three_eq (by omega) (tailBits_ofNat _) (tailBits_ofNat _)]
    exact sequenceChar_toNat (by omega) (by omega)
  · rw [if_neg h3]
    have hn := toNat_ofNat_of_lt (n := c.toNat / 262144 % 8 + 240) (by omega)
    apply symbolsOfBytes_four (by omega) (two_eq_none (by omega)) (three_eq_none (by omega))
    rw [hn, four_eq (by omega) (tailBits_ofNat _) (tailBits_ofNat _) (tailBits_ofNat _)]
    exact sequenceChar_toNat (by omega) (by omega)

theorem symbolsOfBytes_flatMap (cs : List Char) :
    symbolsOfBytes (cs.flatMap String.utf8EncodeChar) = cs.map some := by
  induction cs with
  | nil => rfl
  | cons c cs ih => rw [List.flatMap_cons, symbolsOfBytes_encode, ih, List.map_cons]

/-- The bytes of a text are read as that text. -/
theorem symbolsOfBytes_toUTF8 (s : String) : symbolsOfBytes s.toUTF8.data.toList = symbols s := by
  have hbytes : s.toUTF8.data.toList = s.toList.flatMap String.utf8EncodeChar := by
    rw [String.toUTF8_eq_toByteArray, ← String.utf8Encode_toList, List.utf8Encode, List.toList_data_toByteArray]
  rw [hbytes, symbolsOfBytes_flatMap, symbols]

end SignOn.Text
