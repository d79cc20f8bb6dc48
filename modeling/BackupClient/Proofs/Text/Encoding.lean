import BackupClient.Proofs.Text.Utf8
import Mathlib.Tactic.SplitIfs

/-!
Characters written as bytes and read again.

A character below 128 is one byte; any other one is a lead byte and one to three bytes behind it, none of
them below 128.  The reader passes through one state for each byte and is between characters again at the
end, so that every text survives.
-/

namespace BackupClient.Text.Utf8

variable {char : Char} {code bits low high due : Nat} {byte : UInt8}

/-! ### Single bytes -/

theorem toNat_toUInt8 (small : code < 256) : code.toUInt8.toNat = code :=
  UInt8.toNat_ofNat_of_lt' small

theorem lead_two (least : 0xC2 ≤ byte.toNat) (below : byte.toNat < 0xE0) :
    lead byte = .longer ⟨1, byte.toNat - 0xC0, 0x80, 0xBF⟩ := by
  unfold lead
  dsimp only
  rw [if_neg (by omega), if_neg (by omega), if_pos below]

/-- The second of three bytes is bounded where a shorter sequence would do or a surrogate would begin. -/
theorem lead_three (least : 0xE0 ≤ byte.toNat) (below : byte.toNat < 0xF0) :
    lead byte = .longer ⟨2, byte.toNat - 0xE0, if byte.toNat = 0xE0 then 0xA0 else 0x80,
      if byte.toNat = 0xED then 0x9F else 0xBF⟩ := by
  unfold lead
  dsimp only
  rw [if_neg (by omega), if_neg (by omega), if_neg (by omega)]
  by_cases first : byte.toNat = 0xE0
  · simp [first]
  · by_cases surrogates : byte.toNat = 0xED
    · simp [surrogates]
    · simp [first, surrogates, below]

/-- The second of four bytes is bounded where a shorter sequence would do or the characters end. -/
theorem lead_four (least : 0xF0 ≤ byte.toNat) (below : byte.toNat < 0xF5) :
    lead byte = .longer ⟨3, byte.toNat - 0xF0, if byte.toNat = 0xF0 then 0x90 else 0x80,
      if byte.toNat = 0xF4 then 0x8F else 0xBF⟩ := by
  unfold lead
  dsimp only
  rw [if_neg (by omega), if_neg (by omega), if_neg (by omega), if_neg (by omega), if_neg (by omega),
    if_neg (by omega)]
  by_cases first : byte.toNat = 0xF0
  · simp [first]
  · by_cases last : byte.toNat = 0xF4
    · simp [last]
    · have between : byte.toNat < 0xF4 := by omega
      simp [first, last, between]

theorem step_last (within : low ≤ byte.toNat ∧ byte.toNat ≤ high) :
    step (some ⟨1, bits, low, high⟩) byte =
      ([some (Char.ofNat (bits * 64 + (byte.toNat - 0x80)))], none) := by
  simp [step, within]

theorem step_further (within : low ≤ byte.toNat ∧ byte.toNat ≤ high) :
    step (some ⟨due + 2, bits, low, high⟩) byte =
      ([], some ⟨due + 1, bits * 64 + (byte.toNat - 0x80), 0x80, 0xBF⟩) := by
  simp [step, within]

theorem step_lead {sequence : Sequence} (leads : lead byte = .longer sequence) :
    step none byte = ([], some sequence) := by
  simp [step, begin, leads]

/-! ### Characters -/

theorem encodeChar_of_ascii (ascii : char.toNat < 0x80) : encodeChar char = [char.toNat.toUInt8] := by
  simp [encodeChar, ascii]

theorem le_of_mem_encodeChar (long : 0x80 ≤ char.toNat) (member : byte ∈ encodeChar char) :
    0x80 ≤ byte.toNat := by
  have scalar : char.toNat < 0x110000 := by
    have valid : char.toNat < 0xD800 ∨ 0xDFFF < char.toNat ∧ char.toNat < 0x110000 := char.valid
    omega
  unfold encodeChar at member
  dsimp only at member
  rw [if_neg (by omega)] at member
  split_ifs at member
  all_goals
    simp only [List.mem_cons, List.not_mem_nil, or_false] at member
    rcases member with rfl | rfl | rfl | rfl
  all_goals
    rw [toNat_toUInt8 (by omega)]
    omega

theorem items_encodeChar (char : Char) (rest : List UInt8) :
    items none (encodeChar char ++ rest) = some char :: items none rest := by
  have valid : char.toNat < 0xD800 ∨ 0xDFFF < char.toNat ∧ char.toNat < 0x110000 := char.valid
  have read {bits : Nat} (same : bits = char.toNat) : Char.ofNat bits = char := by
    rw [same, Char.ofNat_toNat]
  by_cases one : char.toNat < 0x80
  · have single : step none char.toNat.toUInt8 = ([some char], none) := by
      simp [step, begin, lead, toNat_toUInt8 (show char.toNat < 256 by omega), one]
    rw [encodeChar_of_ascii one, List.singleton_append, items_cons, single]
    rfl
  by_cases two : char.toNat < 0x800
  · have first := toNat_toUInt8 (show 0xC0 + char.toNat / 64 < 256 by omega)
    have second := toNat_toUInt8 (show 0x80 + char.toNat % 64 < 256 by omega)
    have shape : encodeChar char =
        [(0xC0 + char.toNat / 64).toUInt8, (0x80 + char.toNat % 64).toUInt8] := by
      simp [encodeChar, one, two]
    rw [shape, List.cons_append, List.cons_append, List.nil_append, items_cons,
      step_lead (lead_two (by omega) (by omega)), items_cons, step_last (by omega),
      read (by omega)]
    rfl
  by_cases three : char.toNat < 0x10000
  · have first := toNat_toUInt8 (show 0xE0 + char.toNat / 4096 < 256 by omega)
    have second := toNat_toUInt8 (show 0x80 + char.toNat / 64 % 64 < 256 by omega)
    have third := toNat_toUInt8 (show 0x80 + char.toNat % 64 < 256 by omega)
    have shape : encodeChar char = [(0xE0 + char.toNat / 4096).toUInt8,
        (0x80 + char.toNat / 64 % 64).toUInt8, (0x80 + char.toNat % 64).toUInt8] := by
      simp [encodeChar, one, two, three]
    rw [shape, List.cons_append, List.cons_append, List.cons_append, List.nil_append, items_cons,
      step_lead (lead_three (by omega) (by omega)), items_cons, step_further (by split_ifs <;> omega),
      items_cons, step_last (by omega), read (by omega)]
    rfl
  · have first := toNat_toUInt8 (show 0xF0 + char.toNat / 262144 < 256 by omega)
    have second := toNat_toUInt8 (show 0x80 + char.toNat / 4096 % 64 < 256 by omega)
    have third := toNat_toUInt8 (show 0x80 + char.toNat / 64 % 64 < 256 by omega)
    have fourth := toNat_toUInt8 (show 0x80 + char.toNat % 64 < 256 by omega)
    have shape : encodeChar char = [(0xF0 + char.toNat / 262144).toUInt8,
        (0x80 + char.toNat / 4096 % 64).toUInt8, (0x80 + char.toNat / 64 % 64).toUInt8,
        (0x80 + char.toNat % 64).toUInt8] := by
      simp [encodeChar, one, two, three]
    rw [shape, List.cons_append, List.cons_append, List.cons_append, List.cons_append,
      List.nil_append, items_cons, step_lead (lead_four (by omega) (by omega)), items_cons,
      step_further (by split_ifs <;> omega), items_cons, step_further (by omega), items_cons,
      step_last (by omega), read (by omega)]
    rfl

/-- A text is read from its bytes as it was. -/
theorem decodeLossy_encode (chars : List Char) : decodeLossy (encode chars) = chars := by
  have read : items none (encode chars) = chars.map some := by
    induction chars with
    | nil => rfl
    | cons char chars inductionHypothesis =>
        rw [encode, List.flatMap_cons, items_encodeChar, List.map_cons]
        exact congrArg (some char :: ·) inductionHypothesis
  rw [decodeLossy, read, List.map_map]
  exact List.map_id chars

end BackupClient.Text.Utf8
