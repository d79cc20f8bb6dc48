import BackupClient.Command.Output

/-!
ASCII characters in the text of a byte string.

No sequence goes on over an ASCII character, and no other bytes are read as a line feed.  So the text of
bytes that such a character divides is the texts of the parts with the character between them.
-/

namespace BackupClient.Text.Utf8

variable {state : Option Sequence} {sequence : Sequence} {byte : UInt8}

/-- What holds of each sequence that is under way: its next byte is no ASCII character, and neither is the
character that it comes to. -/
structure Sequence.Sound (sequence : Sequence) : Prop where
  continues : 0x80 ≤ sequence.low
  leads : sequence.bits = 0 → 0x90 ≤ sequence.low ∧ sequence.due ≠ 1

/-- Between characters, or inside a sound sequence. -/
def Sound (state : Option Sequence) : Prop :=
  ∀ sequence, state = some sequence → sequence.Sound

theorem sound_none : Sound none :=
  fun _ begun => by cases begun

theorem sound_some (sound : sequence.Sound) : Sound (some sequence) :=
  fun _ same => Option.some.inj same ▸ sound

theorem ofNat_ne_lineFeed {code : Nat} (different : code ≠ 10) : Char.ofNat code ≠ '\n' := by
  by_cases valid : code.isValidChar
  · have read : Char.ofNat code = Char.ofNatAux code valid := dif_pos valid
    exact fun same => different (congrArg Char.toNat (read.symm.trans same))
  · have read : Char.ofNat code = '\x00' := dif_neg valid
    rw [read]
    decide

inductive Begins (byte : UInt8) : Lead → Prop where
  | single {char : Char} : (byte ≠ lineFeed → char ≠ '\n') → Begins byte (.single char)
  | longer {sequence : Sequence} : sequence.Sound → Begins byte (.longer sequence)
  | invalid : Begins byte .invalid

theorem lead_begins (byte : UInt8) : Begins byte (lead byte) := by
  have sound {due bits low high : Nat} (continues : 0x80 ≤ low)
      (leads : bits = 0 → 0x90 ≤ low ∧ due ≠ 1) : Begins byte (.longer ⟨due, bits, low, high⟩) :=
    .longer ⟨continues, leads⟩
  unfold lead
  dsimp only
  split
  · refine .single fun other => ofNat_ne_lineFeed fun same => other ?_
    exact UInt8.toNat_inj.mp same
  split
  · exact .invalid
  split
  · exact sound (by omega) (by omega)
  split
  · exact sound (by omega) (by omega)
  split
  · exact sound (by omega) (by omega)
  split
  · exact sound (by omega) (by omega)
  split
  · exact sound (by omega) (by omega)
  split
  · exact sound (by omega) (by omega)
  split
  · exact sound (by omega) (by omega)
  · exact .invalid

structure Goes (byte : UInt8) (read : List Item × Option Sequence) : Prop where
  sound : Sound read.2
  unbroken : byte ≠ lineFeed → some '\n' ∉ read.1

theorem begin_goes (byte : UInt8) : Goes byte (begin byte) := by
  unfold begin
  have begins := lead_begins byte
  generalize lead byte = result at begins ⊢
  cases begins with
  | single other =>
      refine ⟨sound_none, fun different member => ?_⟩
      exact other different (Option.some.inj (List.mem_singleton.mp member)).symm
  | longer sound => exact ⟨sound_some sound, fun _ => List.not_mem_nil⟩
  | invalid => exact ⟨sound_none, fun _ => by simp⟩

theorem step_goes (sound : Sound state) (byte : UInt8) : Goes byte (step state byte) := by
  cases state with
  | none => exact begin_goes byte
  | some sequence =>
      obtain ⟨continues, leads⟩ := sound sequence rfl
      unfold step
      dsimp only
      split
      case isTrue within =>
          split
          case isTrue last =>
              refine ⟨sound_none, fun _ member => ?_⟩
              have same := Option.some.inj (List.mem_singleton.mp member)
              refine ofNat_ne_lineFeed ?_ same.symm
              intro feed
              exact (leads (by omega)).2 last
          case isFalse more =>
              refine ⟨sound_some ⟨Nat.le_refl _, ?_⟩, fun _ => List.not_mem_nil⟩
              intro zero
              have lead := leads (by dsimp only at zero; omega)
              dsimp only at zero
              omega
      case isFalse =>
          obtain ⟨next, unbroken⟩ := begin_goes byte
          refine ⟨next, fun different member => ?_⟩
          rcases List.mem_cons.mp member with broken | later
          · cases broken
          · exact unbroken different later

theorem items_cons (state : Option Sequence) (byte : UInt8) (rest : List UInt8) :
    items state (byte :: rest) = (step state byte).1 ++ items (step state byte).2 rest := rfl

theorem step_ascii (sound : Sound state) (ascii : byte.toNat < 0x80) :
    step state byte = (items state [] ++ [some (Char.ofNat byte.toNat)], none) := by
  have begins : begin byte = ([some (Char.ofNat byte.toNat)], none) := by
    simp [begin, lead, ascii]
  cases state with
  | none => exact begins
  | some sequence =>
      have continues := (sound sequence rfl).continues
      have beyond : ¬ (sequence.low ≤ byte.toNat ∧ byte.toNat ≤ sequence.high) := by omega
      simp only [step, if_neg beyond, begins]
      rfl

theorem items_append_ascii (sound : Sound state) (front : List UInt8) (ascii : byte.toNat < 0x80)
    (rest : List UInt8) :
    items state (front ++ byte :: rest) =
      items state front ++ some (Char.ofNat byte.toNat) :: items none rest := by
  induction front generalizing state with
  | nil =>
      rw [List.nil_append, items_cons, step_ascii sound ascii, List.append_assoc]
      rfl
  | cons first front inductionHypothesis =>
      have next := (step_goes sound first).sound
      rw [List.cons_append, items_cons, items_cons, inductionHypothesis next, List.append_assoc]

theorem not_mem_items (sound : Sound state) {line : List UInt8} (unbroken : lineFeed ∉ line) :
    some '\n' ∉ items state line := by
  induction line generalizing state with
  | nil =>
      simp only [items]
      split <;> simp
  | cons byte line inductionHypothesis =>
      obtain ⟨next, first⟩ := step_goes sound byte
      have different : byte ≠ lineFeed := Ne.symm (List.ne_of_not_mem_cons unbroken)
      rw [items_cons]
      exact List.not_mem_append (first different)
        (inductionHypothesis next (List.not_mem_of_not_mem_cons unbroken))

theorem decodeLossy_append_ascii (front : List UInt8) (ascii : byte.toNat < 0x80)
    (rest : List UInt8) :
    decodeLossy (front ++ byte :: rest) =
      decodeLossy front ++ Char.ofNat byte.toNat :: decodeLossy rest := by
  simp only [decodeLossy, items_append_ascii sound_none front ascii, List.map_append,
    List.map_cons, Option.getD_some]

theorem decodeLossy_append_lineFeed (line rest : List UInt8) :
    decodeLossy (line ++ lineFeed :: rest) = decodeLossy line ++ '\n' :: decodeLossy rest :=
  decodeLossy_append_ascii line (by decide) rest

theorem not_mem_decodeLossy {line : List UInt8} (unbroken : lineFeed ∉ line) :
    '\n' ∉ decodeLossy line := by
  intro member
  obtain ⟨item, found, same⟩ := List.mem_map.mp member
  cases item with
  | none => cases same
  | some char =>
      obtain rfl : char = '\n' := same
      exact not_mem_items sound_none unbroken found

end BackupClient.Text.Utf8
