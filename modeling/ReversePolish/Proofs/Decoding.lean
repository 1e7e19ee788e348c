import Mathlib.Algebra.Group.Nat.Defs
import Mathlib.Data.List.Induction
import ReversePolish.Source.Decoding

/-!
# ReversePolish.Proofs.Decoding

The UTF-8 decoder takes **exactly the encodings of texts**, and gives those texts back.

A character of several bytes is a first byte, which holds the topmost bits of the code
point, and behind it bytes of six bits each (`tailBytes`). An open character stands for
the code points that are still possible: those with the bits known so far, the next six
of which lie in the range that the decoder asks for. Reading the tail of one of them
leads to it (`foldl_take_tailBytes`), and every byte that is accepted leaves only code
points whose encoding has that byte in its place (`Begins`).

Design points:

* The narrowed ranges of the second byte are where longer forms than necessary,
  surrogates and code points beyond the last are ruled out. All of that is in
  `exists_opens` one way and in `Opens.begins` the other; the bytes behind the second
  one need no case of their own.
-/

namespace ReversePolish

/-! ### Encoded characters -/

/-- The last `count` bytes of the encoding of a code point. -/
def tailBytes (code : Nat) : Nat → List UInt8
  | 0 => []
  | count + 1 => UInt8.ofNat (code / 64 ^ count % 64 + 0x80) :: tailBytes code count

theorem length_tailBytes (code count : Nat) : (tailBytes code count).length = count := by
  induction count with
  | zero => rfl
  | succ count ih => rw [tailBytes, List.length_cons, ih]

theorem toNat_valid (c : Char) : c.toNat < 0xd800 ∨ (0xdfff < c.toNat ∧ c.toNat < 0x110000) :=
  c.valid

theorem toNat_charOfNat {code : Nat} (h : code < 0xd800 ∨ (0xdfff < code ∧ code < 0x110000)) :
    (Char.ofNat code).toNat = code := by
  have hvalid : code.isValidChar := h
  exact congrArg Char.toNat (dif_pos hvalid)

theorem utf8EncodeChar_one {c : Char} (h : c.toNat < 0x80) :
    String.utf8EncodeChar c = [UInt8.ofNat c.toNat] := by
  have hv : c.val.toNat = c.toNat := rfl
  simp only [String.utf8EncodeChar, hv]
  rw [if_pos (by omega)]

theorem utf8EncodeChar_two {c : Char} (h : 0x80 ≤ c.toNat) (h' : c.toNat < 0x800) :
    String.utf8EncodeChar c = UInt8.ofNat (c.toNat / 64 + 0xc0) :: tailBytes c.toNat 1 := by
  have hv : c.val.toNat = c.toNat := rfl
  have hfirst : c.toNat / 64 % 0x20 = c.toNat / 64 := by omega
  simp only [String.utf8EncodeChar, hv]
  rw [if_neg (by omega), if_pos (by omega), hfirst]
  simp [tailBytes]

theorem utf8EncodeChar_three {c : Char} (h : 0x800 ≤ c.toNat) (h' : c.toNat < 0x10000) :
    String.utf8EncodeChar c = UInt8.ofNat (c.toNat / 4096 + 0xe0) :: tailBytes c.toNat 2 := by
  have hv : c.val.toNat = c.toNat := rfl
  have hfirst : c.toNat / 4096 % 0x10 = c.toNat / 4096 := by omega
  simp only [String.utf8EncodeChar, hv]
  rw [if_neg (by omega), if_neg (by omega), if_pos (by omega), hfirst]
  simp [tailBytes]

theorem utf8EncodeChar_four {c : Char} (h : 0x10000 ≤ c.toNat) :
    String.utf8EncodeChar c = UInt8.ofNat (c.toNat / 262144 + 0xf0) :: tailBytes c.toNat 3 := by
  have hv : c.val.toNat = c.toNat := rfl
  have hlast := toNat_valid c
  have hfirst : c.toNat / 262144 % 0x08 = c.toNat / 262144 := by omega
  simp only [String.utf8EncodeChar, hv]
  rw [if_neg (by omega), if_neg (by omega), if_neg (by omega), hfirst]
  simp [tailBytes]

namespace Decoder

/-! ### Steps -/

theorem toNat_ofNat_of_lt {n : Nat} (h : n < 256) : (UInt8.ofNat n).toNat = n := by
  simp [Nat.mod_eq_of_lt h]

variable {backwards : Text} {read : Nat} {byte : UInt8} {character : OpenCharacter}

theorem take_inside (hlow : character.low ≤ byte.toNat) (hhigh : byte.toNat ≤ character.high) :
    take .utf8 ⟨backwards, read, .inside character⟩ byte =
      if character.missing ≤ 1 then
        ⟨Char.ofNat (character.code * 64 + byte.toNat % 64) :: backwards, read + 1, .between⟩
      else
        ⟨backwards, read + 1, .inside ⟨character.first, character.taken + 1, character.missing - 1,
          0x80, 0xbf, character.code * 64 + byte.toNat % 64⟩⟩ := by
  simp only [take, takeNext, hlow, hhigh, true_and, if_true, finishCharacter, continueCharacter]

/-- The bits known after one more byte of the tail. -/
theorem code_step (code count : Nat) :
    code / 64 ^ (count + 1) * 64 + (code / 64 ^ count % 64 + 0x80) % 64 = code / 64 ^ count := by
  have hdiv : code / 64 ^ (count + 1) = code / 64 ^ count / 64 := by
    rw [Nat.pow_succ, Nat.div_div_eq_div_mul]
  rw [hdiv]
  omega

/-- Reading the last bytes of a code point whose first bits are known. -/
theorem foldl_take_tailBytes {code count : Nat} (hmissing : character.missing = count + 1)
    (hcode : character.code = code / 64 ^ (count + 1))
    (hlow : character.low ≤ code / 64 ^ count % 64 + 0x80)
    (hhigh : code / 64 ^ count % 64 + 0x80 ≤ character.high) :
    (tailBytes code (count + 1)).foldl (take .utf8) ⟨backwards, read, .inside character⟩ =
      ⟨Char.ofNat code :: backwards, read + (count + 1), .between⟩ := by
  -- Over the bytes left. Behind each of them the range is the plain one again.
  induction count generalizing character read with
  | zero =>
      have hbyte := toNat_ofNat_of_lt (n := code / 64 ^ 0 % 64 + 0x80) (by omega)
      rw [tailBytes, List.foldl_cons, take_inside (by rwa [hbyte]) (by rwa [hbyte]),
        if_pos (by omega), hbyte, hcode, code_step]
      simp [tailBytes]
  | succ count ih =>
      have hbyte := toNat_ofNat_of_lt (n := code / 64 ^ (count + 1) % 64 + 0x80) (by omega)
      rw [tailBytes, List.foldl_cons, take_inside (by rwa [hbyte]) (by rwa [hbyte]),
        if_neg (by omega), hbyte, hcode, code_step, ih _ rfl, Nat.add_assoc, Nat.add_comm 1]
      · simp
      · dsimp only
        omega
      · dsimp only
        omega

/-! ### First bytes -/

/-- The first bytes of longer characters: what each of them leaves to be read. -/
inductive Opens : (n missing low high code : Nat) → Prop
  | two {n : Nat} : 0xc2 ≤ n → n < 0xe0 → Opens n 1 0x80 0xbf (n % 32)
  | three {n : Nat} : 0xe0 ≤ n → n < 0xf0 →
      Opens n 2 (if n = 0xe0 then 0xa0 else 0x80) (if n = 0xed then 0x9f else 0xbf) (n % 16)
  | four {n : Nat} : 0xf0 ≤ n → n < 0xf5 →
      Opens n 3 (if n = 0xf0 then 0x90 else 0x80) (if n = 0xf4 then 0x8f else 0xbf) (n % 8)

theorem take_ascii (h : byte.toNat < 0x80) (backwards : Text) (read : Nat) :
    take .utf8 ⟨backwards, read, .between⟩ byte =
      ⟨Char.ofNat byte.toNat :: backwards, read + 1, .between⟩ := by
  simp only [take, takeFirst, h, if_true, finishCharacter]

theorem take_opens {missing low high code : Nat} (h : Opens byte.toNat missing low high code)
    (backwards : Text) (read : Nat) :
    take .utf8 ⟨backwards, read, .between⟩ byte =
      ⟨backwards, read + 1, .inside ⟨byte, 1, missing, low, high, code⟩⟩ := by
  simp only [take, takeFirst]
  cases h with
  | two hlow hhigh =>
      rw [if_neg (by omega), if_neg (by omega), if_pos hhigh]
      rfl
  | three hlow hhigh =>
      rw [if_neg (by omega), if_neg (by omega), if_neg (by omega), if_pos hhigh]
      rfl
  | four hlow hhigh =>
      rw [if_neg (by omega), if_neg (by omega), if_neg (by omega), if_neg (by omega), if_pos hhigh]
      rfl

/-- A byte between two characters is one, opens one, or is refused. -/
theorem take_between_cases (byte : UInt8) (backwards : Text) (read : Nat) :
    byte.toNat < 0x80 ∨ (∃ missing low high code, Opens byte.toNat missing low high code) ∨
      ∃ fault, take .utf8 ⟨backwards, read, .between⟩ byte = ⟨backwards, read, .stopped fault⟩ := by
  by_cases hascii : byte.toNat < 0x80
  · exact Or.inl hascii
  by_cases hopens : 0xc2 ≤ byte.toNat ∧ byte.toNat < 0xf5
  · refine Or.inr (Or.inl ?_)
    by_cases htwo : byte.toNat < 0xe0
    · exact ⟨_, _, _, _, .two hopens.1 htwo⟩
    by_cases hthree : byte.toNat < 0xf0
    · exact ⟨_, _, _, _, .three (by omega) hthree⟩
    · exact ⟨_, _, _, _, .four (by omega) hopens.2⟩
  · refine Or.inr (Or.inr ⟨refused ⟨backwards, read, .between⟩ .invalidStart byte, ?_⟩)
    simp only [take, takeFirst, hascii, if_false]
    by_cases hlow : byte.toNat < 0xc2
    · rw [if_pos hlow]
      rfl
    · rw [if_neg hlow, if_neg (by omega), if_neg (by omega), if_neg (by omega)]
      rfl

/-- A longer character is opened by the first byte of its encoding. -/
theorem exists_opens {c : Char} (h : 0x80 ≤ c.toNat) :
    ∃ (n count low high code : Nat), n < 256 ∧ Opens n (count + 1) low high code ∧
      String.utf8EncodeChar c = UInt8.ofNat n :: tailBytes c.toNat (count + 1) ∧
      code = c.toNat / 64 ^ (count + 1) ∧ low ≤ c.toNat / 64 ^ count % 64 + 0x80 ∧
      c.toNat / 64 ^ count % 64 + 0x80 ≤ high := by
  have hvalid := toNat_valid c
  by_cases htwo : c.toNat < 0x800
  · exact ⟨_, 0, _, _, _, by omega, .two (by omega) (by omega), utf8EncodeChar_two h htwo,
      by omega, by omega, by omega⟩
  by_cases hthree : c.toNat < 0x10000
  · refine ⟨_, 1, _, _, _, by omega, .three (by omega) (by omega),
      utf8EncodeChar_three (by omega) hthree, by omega, ?_, ?_⟩
    · split <;> omega
    · split <;> omega
  · refine ⟨_, 2, _, _, _, by omega, .four (by omega) (by omega),
      utf8EncodeChar_four (by omega), by omega, ?_, ?_⟩
    · split <;> omega
    · split <;> omega

/-! ### From texts to bytes and back -/

theorem foldl_take_utf8EncodeChar (c : Char) (backwards : Text) (read : Nat) :
    (String.utf8EncodeChar c).foldl (take .utf8) ⟨backwards, read, .between⟩ =
      ⟨c :: backwards, read + (String.utf8EncodeChar c).length, .between⟩ := by
  by_cases hascii : c.toNat < 0x80
  · have hbyte := toNat_ofNat_of_lt (n := c.toNat) (by omega)
    rw [utf8EncodeChar_one hascii, List.foldl_cons, List.foldl_nil, take_ascii (by rwa [hbyte]),
      hbyte, Char.ofNat_toNat]
    rfl
  · obtain ⟨n, count, low, high, code, hn, hopens, hencoded, hcode, hlow, hhigh⟩ :=
      exists_opens (c := c) (by omega)
    rw [← toNat_ofNat_of_lt hn] at hopens
    rw [hencoded, List.foldl_cons, take_opens hopens, foldl_take_tailBytes rfl hcode hlow hhigh,
      Char.ofNat_toNat, List.length_cons, length_tailBytes, Nat.add_assoc, Nat.add_comm 1]

theorem foldl_take_encodeUtf8 (text backwards : Text) (read : Nat) :
    (encodeUtf8 text).foldl (take .utf8) ⟨backwards, read, .between⟩ =
      ⟨text.reverse ++ backwards, read + (encodeUtf8 text).length, .between⟩ := by
  induction text generalizing backwards read with
  | nil => rfl
  | cons c text ih =>
      rw [encodeUtf8_cons, List.foldl_append, foldl_take_utf8EncodeChar, ih]
      simp [Nat.add_assoc]

theorem run_encodeUtf8 (text : Text) :
    run .utf8 (encodeUtf8 text) = ⟨text.reverse, (encodeUtf8 text).length, .between⟩ := by
  have hfold := foldl_take_encodeUtf8 text [] 0
  rwa [List.append_nil, Nat.zero_add] at hfold

/-- What is known of a character that was begun: the code points that it may still become
are all encoded by the bytes so far and their own tails. -/
structure Begins (pending : List UInt8) (character : OpenCharacter) : Prop where
  missing_pos : 0 < character.missing
  low : 0x80 ≤ character.low
  high : character.high ≤ 0xbf
  completed : ∀ count code, character.missing = count + 1 →
    code / 64 ^ (count + 1) = character.code →
    character.low ≤ code / 64 ^ count % 64 + 0x80 →
    code / 64 ^ count % 64 + 0x80 ≤ character.high →
    String.utf8EncodeChar (Char.ofNat code) = pending ++ tailBytes code (count + 1)

theorem Opens.begins {missing low high code : Nat} (h : Opens byte.toNat missing low high code) :
    Begins [byte] ⟨byte, 1, missing, low, high, code⟩ := by
  cases h with
  | two hfirst hlast =>
      refine ⟨Nat.one_pos, Nat.le_refl _, Nat.le_refl _, fun count code hmissing hcode _ _ => ?_⟩
      obtain rfl : count = 0 := (Nat.succ.inj hmissing).symm
      dsimp only at hcode
      have hcode' : (Char.ofNat code).toNat = code := toNat_charOfNat (by omega)
      have hbyte : code / 64 + 0xc0 = byte.toNat := by omega
      rw [utf8EncodeChar_two (by omega) (by omega), hcode', hbyte, UInt8.ofNat_toNat]
      rfl
  | three hfirst hlast =>
      refine ⟨Nat.two_pos, ?_, ?_, fun count code hmissing hcode hlow hhigh => ?_⟩
      · dsimp only
        split <;> omega
      · dsimp only
        split <;> omega
      · obtain rfl : count = 1 := (Nat.succ.inj hmissing).symm
        dsimp only at hcode hlow hhigh
        -- The least second byte behind 0xe0 rules out two bytes, the greatest behind 0xed
        -- rules out surrogates.
        have hlong : 0x800 ≤ code := by split at hlow <;> omega
        have hplain : code < 0xd800 ∨ 0xdfff < code := by split at hhigh <;> omega
        have hcode' : (Char.ofNat code).toNat = code := toNat_charOfNat (by omega)
        have hbyte : code / 4096 + 0xe0 = byte.toNat := by omega
        rw [utf8EncodeChar_three (by omega) (by omega), hcode', hbyte, UInt8.ofNat_toNat]
        rfl
  | four hfirst hlast =>
      refine ⟨Nat.succ_pos 2, ?_, ?_, fun count code hmissing hcode hlow hhigh => ?_⟩
      · dsimp only
        split <;> omega
      · dsimp only
        split <;> omega
      · obtain rfl : count = 2 := (Nat.succ.inj hmissing).symm
        dsimp only at hcode hlow hhigh
        -- The same of three bytes behind 0xf0, and of what is no code point behind 0xf4.
        have hlong : 0x10000 ≤ code := by split at hlow <;> omega
        have hknown : code < 0x110000 := by split at hhigh <;> omega
        have hcode' : (Char.ofNat code).toNat = code := toNat_charOfNat (by omega)
        have hbyte : code / 262144 + 0xf0 = byte.toNat := by omega
        rw [utf8EncodeChar_four (by omega), hcode', hbyte, UInt8.ofNat_toNat]
        rfl

/-- What the bytes so far are to a decoder that took them: the encoding of its text, and
then the bytes of an open character. A decoder that has stopped knows nothing. -/
def HasRead (bytes : List UInt8) (decoder : Decoder) : Prop :=
  match decoder.state with
  | .between => bytes = encodeUtf8 decoder.text
  | .inside character =>
    ∃ pending, bytes = encodeUtf8 decoder.text ++ pending ∧ Begins pending character
  | .surrogate => True
  | .stopped _ => True

theorem hasRead_take_between {bytes : List UInt8} {decoder : Decoder}
    (h : HasRead bytes decoder) (hstate : decoder.state = .between) (byte : UInt8) :
    HasRead (bytes ++ [byte]) (take .utf8 decoder byte) := by
  obtain ⟨backwards, read, state⟩ := decoder
  obtain rfl : state = .between := hstate
  obtain rfl : bytes = encodeUtf8 backwards.reverse := h
  rcases take_between_cases byte backwards read with hascii | ⟨missing, low, high, code, hopens⟩ |
    ⟨fault, hfault⟩
  · have hcode : (Char.ofNat byte.toNat).toNat = byte.toNat := toNat_charOfNat (by omega)
    rw [take_ascii hascii]
    simp [HasRead, text, utf8EncodeChar_one (by rwa [hcode] : (Char.ofNat byte.toNat).toNat < 0x80),
      hcode]
  · rw [take_opens hopens]
    exact ⟨[byte], rfl, hopens.begins⟩
  · rw [hfault]
    trivial

/-- The byte behind those so far, as the next six bits of a code point. -/
theorem Begins.next_eq {pending : List UInt8} (h : Begins pending character)
    (hlow : character.low ≤ byte.toNat) (hhigh : byte.toNat ≤ character.high) :
    byte.toNat % 64 + 0x80 = byte.toNat := by
  have hleast := h.low
  have hgreatest := h.high
  omega

theorem Begins.last {pending : List UInt8} (h : Begins pending character)
    (hlow : character.low ≤ byte.toNat) (hhigh : byte.toNat ≤ character.high)
    (hmissing : character.missing = 1) :
    String.utf8EncodeChar (Char.ofNat (character.code * 64 + byte.toNat % 64)) =
      pending ++ [byte] := by
  have hnext := h.next_eq hlow hhigh
  have hbits : (character.code * 64 + byte.toNat % 64) % 64 + 0x80 = byte.toNat := by omega
  have hcompleted := h.completed 0 (character.code * 64 + byte.toNat % 64) hmissing
  simp only [Nat.zero_add, Nat.pow_zero, Nat.div_one, Nat.pow_one, hbits, tailBytes,
    UInt8.ofNat_toNat] at hcompleted
  exact hcompleted (by omega) hlow hhigh

theorem Begins.more {pending : List UInt8} (h : Begins pending character)
    (hlow : character.low ≤ byte.toNat) (hhigh : byte.toNat ≤ character.high) {count : Nat}
    (hmissing : character.missing = count + 2) :
    Begins (pending ++ [byte]) ⟨character.first, character.taken + 1, count + 1, 0x80, 0xbf,
      character.code * 64 + byte.toNat % 64⟩ := by
  have hnext := h.next_eq hlow hhigh
  refine ⟨Nat.succ_pos count, Nat.le_refl _, Nat.le_refl _, fun count' code hcount hcode _ _ => ?_⟩
  obtain rfl : count' = count := (Nat.succ.inj hcount).symm
  dsimp only at hcode
  -- A code point with the bits known now has the bits known before, and this byte behind them.
  have hbits : code / 64 ^ (count' + 1) % 64 + 0x80 = byte.toNat := by omega
  have hknown : code / 64 ^ (count' + 2) = character.code := by
    rw [Nat.pow_succ, ← Nat.div_div_eq_div_mul]
    omega
  rw [h.completed (count' + 1) code hmissing hknown (by rwa [hbits]) (by rwa [hbits]), tailBytes,
    hbits, UInt8.ofNat_toNat, List.append_assoc, List.singleton_append]

theorem hasRead_take_inside {bytes : List UInt8} {decoder : Decoder} {character : OpenCharacter}
    (h : HasRead bytes decoder) (hstate : decoder.state = .inside character) (byte : UInt8) :
    HasRead (bytes ++ [byte]) (take .utf8 decoder byte) := by
  obtain ⟨backwards, read, state⟩ := decoder
  obtain rfl : state = .inside character := hstate
  obtain ⟨pending, rfl, hpending⟩ := h
  by_cases hrange : character.low ≤ byte.toNat ∧ byte.toNat ≤ character.high
  · rw [take_inside hrange.1 hrange.2]
    by_cases hmissing : character.missing ≤ 1
    · have hone : character.missing = 1 := Nat.le_antisymm hmissing hpending.missing_pos
      rw [if_pos hmissing]
      simp [HasRead, text, hpending.last hrange.1 hrange.2 hone]
    · obtain ⟨count, hcount⟩ : ∃ count, character.missing = count + 2 :=
        ⟨character.missing - 2, by omega⟩
      rw [if_neg hmissing, hcount]
      exact ⟨pending ++ [byte], by simp [text], hpending.more hrange.1 hrange.2 hcount⟩
  · simp only [take, takeNext, hrange, if_false]
    split
    · trivial
    · trivial

/-- One more byte keeps what the bytes are to the decoder. -/
theorem hasRead_take {bytes : List UInt8} {decoder : Decoder} (h : HasRead bytes decoder)
    (byte : UInt8) : HasRead (bytes ++ [byte]) (take .utf8 decoder byte) := by
  cases hstate : decoder.state with
  | between => exact hasRead_take_between h hstate byte
  | inside character => exact hasRead_take_inside h hstate byte
  | surrogate => simp [HasRead, take, hstate, stop]
  | stopped fault => simp [HasRead, take, hstate]

theorem hasRead_run (bytes : List UInt8) : HasRead bytes (run .utf8 bytes) := by
  induction bytes using List.reverseRecOn with
  | nil => rfl
  | append_singleton bytes byte ih =>
      rw [run, List.foldl_append]
      exact hasRead_take ih byte

/-- **Exactly the encodings of texts are decoded.** The decoder ends between two characters,
with a text, when the bytes are the encoding of that text and not otherwise. -/
theorem run_eq_text_iff {bytes : List UInt8} {text : Text} :
    ((run .utf8 bytes).state = .between ∧ (run .utf8 bytes).text = text) ↔
      bytes = encodeUtf8 text := by
  constructor
  · rintro ⟨hstate, rfl⟩
    have hread := hasRead_run bytes
    unfold HasRead at hread
    rw [hstate] at hread
    exact hread
  · rintro rfl
    rw [run_encodeUtf8]
    exact ⟨rfl, text.reverse_reverse⟩

theorem encodeUtf8_injective : Function.Injective encodeUtf8 := by
  intro text text' h
  have htext := (run_eq_text_iff.mpr h).2
  rw [run_encodeUtf8] at htext
  exact text.reverse_reverse.symm.trans htext

end Decoder

end ReversePolish
