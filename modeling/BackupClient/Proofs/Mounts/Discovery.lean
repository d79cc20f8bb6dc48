import BackupClient.Engine.Mounts
import BackupClient.Proofs.Files.Path
import BackupClient.Proofs.Text.Decimal
import Mathlib.Algebra.Group.Int.Defs

/-!
Mounts found by the names of their directories.

A directory is named for what is mounted on it, and mounts are found by reading such names.  Reading passes
over zeros in front of a number, and naming never writes any.  The main result says for which mount points
this makes no difference, so that exactly the directories are found that are named for a number.
-/

namespace BackupClient

open Text

inductive MountKind where
  | repository
  | archive
  deriving DecidableEq, Repr

namespace MountKind

def stem : MountKind → String
  | .repository => Mounts.repositoryStem
  | .archive => Mounts.archiveStem

def directory (root : String) (id : Int) : MountKind → String
  | .repository => Mounts.repositoryDirectory root id
  | .archive => Mounts.archiveDirectory root id

def entries (mounts : Mounts) : MountKind → List (Nat × String)
  | .repository => mounts.repositories
  | .archive => mounts.archives

end MountKind

namespace Mounts

variable {root point path : String} {kind : MountKind} {number zeros : Nat} {id : Int}
  {points : List String} {held : List (Nat × String)}

/-- A path stands among some mount points, in whatever way it is written there. -/
def Lists (points : List String) (path : String) : Prop :=
  ∃ point ∈ points, Path.Same point.toList path.toList

/-- A number has a path among some mounts, in whatever way it is written there. -/
def Maps (held : List (Nat × String)) (id : Int) (path : String) : Prop :=
  ∃ number point, (number, point) ∈ held ∧ (number : Int) = id ∧
    Path.Same point.toList path.toList

/-- The mounts that are found are the mount points that are named for a number of sixty-four bits. -/
def FindsNamed (root : String) (points : List String) : Prop :=
  ∀ (kind : MountKind) (id : Int) (path : String), -2 ^ 63 ≤ id → id < 2 ^ 63 →
    (Maps (kind.entries (ofPoints root points)) id path ↔
      0 ≤ id ∧ Lists points path ∧ Path.Same path.toList (kind.directory root id).toList)

/-- A mount point is the directory of a number, but for some zeros in front of the number. -/
def IsNumbered (root : String) (kind : MountKind) (zeros number : Nat) (point : String) : Prop :=
  Path.components point.toList = Path.components root.toList ++
    [.name (kind.stem.toList ++ (List.replicate zeros '0' ++ Decimal.digits number))]

/-! ### Names -/

theorem isPlain_name (kind : MountKind) {numeral : List Char} (undivided : '/' ∉ numeral) :
    Path.IsPlain (kind.stem.toList ++ numeral) := by
  cases kind with
  | repository =>
      apply Path.isPlain_cons
      · exact List.not_mem_append (show '/' ∉ "repo-".toList by decide) undivided
      · decide
  | archive =>
      apply Path.isPlain_cons
      · exact List.not_mem_append (show '/' ∉ "archive-".toList by decide) undivided
      · decide

theorem slash_not_mem_digits (number : Nat) : '/' ∉ Decimal.digits number := by
  intro member
  exact absurd (Decimal.isDigit_of_mem_digits member) (by decide)

theorem components_directory (root : String) (kind : MountKind) (number : Nat) :
    Path.components (kind.directory root number).toList =
      Path.components root.toList ++ [.name (kind.stem.toList ++ Decimal.digits number)] := by
  have named : kind.directory root number = Mounts.directory root kind.stem number := by
    cases kind <;> rfl
  have numeral : (kind.stem ++ Decimal.intText number).toList =
      kind.stem.toList ++ Decimal.digits number := by
    rw [String.toList_append, Decimal.intText, String.toList_ofList, Decimal.ofInt,
      if_neg (Int.not_lt.mpr (Int.natCast_nonneg number)), Int.natAbs_natCast]
  rw [named, Mounts.directory, String.toList_ofList, numeral,
    Path.components_join _ (isPlain_name kind (slash_not_mem_digits number))]

/-- The directory that is named for a number is the one without zeros. -/
theorem isNumbered_zero_iff :
    IsNumbered root kind 0 number point ↔
      Path.Same point.toList (kind.directory root number).toList := by
  rw [Path.Same, components_directory]
  rfl

theorem IsNumbered.unique {others other : Nat} (first : IsNumbered root kind zeros number point)
    (second : IsNumbered root kind others other point) : zeros = others ∧ number = other := by
  have whole := List.append_cancel_left (first.symm.trans second)
  have names := Path.Component.name.inj (List.cons.inj whole).1
  have numerals := List.append_cancel_left names
  have value := congrArg Decimal.value numerals
  simp only [Decimal.value_zeros_append, Decimal.value_digits] at value
  subst value
  have lengths := congrArg List.length numerals
  simp only [List.length_append, List.length_replicate, Nat.add_right_cancel_iff] at lengths
  exact ⟨lengths, rfl⟩

theorem IsNumbered.congr (numbered : IsNumbered root kind zeros number point)
    (same : Path.Same point.toList path.toList) : IsNumbered root kind zeros number path :=
  same.symm.trans numbered

/-! ### The number of a mount point -/

def number? (root : String) (kind : MountKind) (point : String) : Option Nat :=
  if Path.parent? point.toList = some (Path.components root.toList) then
    (Path.fileName? point.toList).bind (numbered? kind.stem.toList)
  else Option.none

theorem numbered?_eq_some_iff {stem name : List Char} :
    numbered? stem name = some number ↔ number < 2 ^ 63 ∧
      ∃ zeros, name = stem ++ (List.replicate zeros '0' ++ Decimal.digits number) := by
  unfold numbered?
  constructor
  · intro read
    split at read
    case isFalse => cases read
    case isTrue begins =>
      obtain ⟨numeral, rfl⟩ := List.isPrefixOf_iff_prefix.mp begins
      rw [List.drop_left] at read
      obtain ⟨value, numeralRead, bounded⟩ := Option.bind_eq_some_iff.mp read
      split at bounded
      case isFalse => cases bounded
      case isTrue small =>
        obtain rfl := Option.some.inj bounded
        obtain ⟨zeros, rfl⟩ := Decimal.value?_eq_some_iff.mp numeralRead
        exact ⟨small, zeros, rfl⟩
  · rintro ⟨small, zeros, rfl⟩
    have numeral : Decimal.value? (List.replicate zeros '0' ++ Decimal.digits number) = some number :=
      Decimal.value?_eq_some_iff.mpr ⟨zeros, rfl⟩
    rw [if_pos (List.isPrefixOf_iff_prefix.mpr (List.prefix_append _ _)), List.drop_left, numeral,
      Option.bind_some, if_pos (show number < Nat.pow 2 63 from small)]

theorem number?_eq_some_iff :
    number? root kind point = some number ↔
      number < 2 ^ 63 ∧ ∃ zeros, IsNumbered root kind zeros number point := by
  unfold number?
  constructor
  · intro read
    split at read
    case isFalse => cases read
    case isTrue parent =>
      obtain ⟨name, fileName, numbered⟩ := Option.bind_eq_some_iff.mp read
      obtain ⟨small, zeros, rfl⟩ := numbered?_eq_some_iff.mp numbered
      exact ⟨small, zeros, Path.parent?_and_fileName?_iff.mp ⟨parent, fileName⟩⟩
  · rintro ⟨small, zeros, numbered⟩
    obtain ⟨parent, fileName⟩ := Path.parent?_and_fileName?_iff.mpr numbered
    rw [if_pos parent, fileName]
    exact numbered?_eq_some_iff.mpr ⟨small, zeros, rfl⟩

/-- No name has both stems. -/
theorem numbered?_archiveStem {name : List Char}
    (numbered : numbered? repositoryStem.toList name = some number) :
    numbered? archiveStem.toList name = Option.none := by
  obtain ⟨-, zeros, rfl⟩ := numbered?_eq_some_iff.mp numbered
  rfl

/-! ### Entries -/

theorem mem_insert_iff (sorted : held.Pairwise (·.1 < ·.1)) {entered : Nat} :
    (number, path) ∈ insert entered point held ↔
      if number = entered then path = point else (number, path) ∈ held := by
  induction held with
  | nil =>
      by_cases same : number = entered <;> simp [insert, same]
  | cons entry held inductionHypothesis =>
      obtain ⟨other, first⟩ := entry
      obtain ⟨greater, rest⟩ := List.pairwise_cons.mp sorted
      have absent {least : Nat} (least_le : least ≤ other) : (least, path) ∉ held := by
        intro member
        exact absurd (greater _ member) (Nat.not_lt.mpr least_le)
      unfold insert
      split
      case isTrue before =>
        by_cases same : number = entered
        · subst same
          simp [absent (Nat.le_of_lt before), Nat.ne_of_lt before]
        · simp [same]
      case isFalse =>
        split
        case isTrue equal =>
          subst equal
          by_cases same : number = entered
          · subst same
            simp [absent (Nat.le_refl number)]
          · simp [same]
        case isFalse different =>
          rw [List.mem_cons, inductionHypothesis rest, List.mem_cons]
          by_cases same : number = entered
          · subst same
            simp [different]
          · simp [same]

theorem insert_sorted (sorted : held.Pairwise (·.1 < ·.1)) (entered : Nat) (point : String) :
    (insert entered point held).Pairwise (·.1 < ·.1) := by
  induction held with
  | nil => exact List.pairwise_singleton _ _
  | cons entry held inductionHypothesis =>
      obtain ⟨other, first⟩ := entry
      obtain ⟨greater, rest⟩ := List.pairwise_cons.mp sorted
      unfold insert
      split
      case isTrue before =>
        apply List.pairwise_cons.mpr
        refine ⟨?_, sorted⟩
        intro later member
        rcases List.mem_cons.mp member with rfl | behind
        · exact before
        · exact Nat.lt_trans before (greater later behind)
      case isFalse notBefore =>
        split
        case isTrue equal =>
          subst equal
          exact List.pairwise_cons.mpr ⟨greater, rest⟩
        case isFalse different =>
          apply List.pairwise_cons.mpr
          refine ⟨?_, inductionHypothesis rest⟩
          rintro ⟨number, path⟩ member
          rw [mem_insert_iff rest] at member
          split at member
          case isTrue same =>
            show other < number
            omega
          case isFalse => exact greater _ member

def enter (root : String) (kind : MountKind) (held : List (Nat × String)) (point : String) :
    List (Nat × String) :=
  match number? root kind point with
  | some number => insert number point held
  | Option.none => held

theorem enter_of_number? (read : number? root kind point = some number) :
    enter root kind held point = insert number point held := by
  rw [enter, read]

theorem enter_of_number?_eq_none (unread : number? root kind point = Option.none) :
    enter root kind held point = held := by
  rw [enter, unread]

theorem entries_add (mounts : Mounts) (kind : MountKind) :
    kind.entries (add root.toList mounts point) = enter root kind (kind.entries mounts) point := by
  unfold add enter number?
  split
  case isFalse => rfl
  case isTrue =>
    cases Path.fileName? point.toList with
    | none => rfl
    | some name =>
        rw [Option.bind_some]
        dsimp only
        cases repository : numbered? repositoryStem.toList name with
        | some number =>
            have archive := numbered?_archiveStem repository
            cases kind <;> simp [MountKind.entries, MountKind.stem, repository, archive]
        | none =>
            cases archive : numbered? archiveStem.toList name <;> cases kind <;>
              simp [MountKind.entries, MountKind.stem, repository, archive]

theorem entries_ofPoints (root : String) (points : List String) (kind : MountKind) :
    kind.entries (ofPoints root points) = points.foldl (enter root kind) [] := by
  suffices each : ∀ mounts : Mounts, kind.entries (points.foldl (add root.toList) mounts) =
      points.foldl (enter root kind) (kind.entries mounts) by
    rw [ofPoints, each]
    cases kind <;> rfl
  induction points with
  | nil => exact fun mounts => rfl
  | cons point points inductionHypothesis =>
      intro mounts
      rw [List.foldl_cons, List.foldl_cons, inductionHypothesis, entries_add]

theorem enter_sorted (sorted : held.Pairwise (·.1 < ·.1)) :
    (enter root kind held point).Pairwise (·.1 < ·.1) := by
  cases read : number? root kind point with
  | none =>
      rw [enter_of_number?_eq_none read]
      exact sorted
  | some number =>
      rw [enter_of_number? read]
      exact insert_sorted sorted _ _

theorem foldl_enter_sorted (root : String) (kind : MountKind) (points : List String) :
    (points.foldl (enter root kind) []).Pairwise (·.1 < ·.1) := by
  induction points using List.reverseRecOn with
  | nil => exact List.Pairwise.nil
  | append_singleton points point inductionHypothesis =>
      rw [List.foldl_append]
      exact enter_sorted inductionHypothesis

theorem mem_entries_iff :
    (number, point) ∈ kind.entries (ofPoints root points) ↔
      (points.filter (number? root kind · = some number)).getLast? = some point := by
  rw [entries_ofPoints]
  induction points using List.reverseRecOn with
  | nil => simp
  | append_singleton points last inductionHypothesis =>
      rw [List.foldl_append, List.foldl_cons, List.foldl_nil, List.filter_append]
      cases read : number? root kind last with
      | none =>
          rw [enter_of_number?_eq_none read]
          simpa [read] using inductionHypothesis
      | some other =>
          rw [enter_of_number? read, mem_insert_iff (foldl_enter_sorted root kind points)]
          by_cases same : number = other
          · subst same
            simp [read, eq_comm]
          · have different : other ≠ number := fun equal => same equal.symm
            simpa [read, same, different] using inductionHypothesis

/-- A point is found under a number just if it is the last one of the listed points with this number. -/
theorem mem_entries_iff_last :
    (number, point) ∈ kind.entries (ofPoints root points) ↔
      ∃ before after, points = before ++ point :: after ∧ number? root kind point = some number ∧
        ∀ later ∈ after, number? root kind later ≠ some number := by
  rw [mem_entries_iff, List.getLast?_filter, List.find?_eq_some_iff_append]
  constructor
  · rintro ⟨read, after, before, reversed, later⟩
    refine ⟨before.reverse, after.reverse, ?_, of_decide_eq_true read, ?_⟩
    · rw [← List.reverse_reverse points, reversed]
      simp
    · intro point member
      simpa using later point (List.mem_reverse.mp member)
  · rintro ⟨before, after, rfl, read, later⟩
    refine ⟨decide_eq_true read, after.reverse, before.reverse, by simp, ?_⟩
    intro point member
    simpa using later point (List.mem_reverse.mp member)

theorem exists_entry (listed : point ∈ points) (read : number? root kind point = some number) :
    ∃ last, (number, last) ∈ kind.entries (ofPoints root points) := by
  have member : point ∈ points.filter (number? root kind · = some number) :=
    List.mem_filter.mpr ⟨listed, decide_eq_true read⟩
  refine ⟨_, mem_entries_iff.mpr (List.getLast?_eq_some_getLast (List.ne_nil_of_mem member))⟩

/-! ### The directories that are found -/

/-- Behind each mount point with zeros in front of its number stands the directory that is named for the
number. -/
def PaddedAreSuperseded (root : String) (points : List String) : Prop :=
  ∀ (kind : MountKind) (number zeros : Nat) (before after : List String) (padded : String),
    number < 2 ^ 63 → points = before ++ padded :: after →
      IsNumbered root kind (zeros + 1) number padded → Lists after (kind.directory root number)

theorem PaddedAreSuperseded.named_of_entry (superseded : PaddedAreSuperseded root points)
    (entry : (number, point) ∈ kind.entries (ofPoints root points)) :
    Path.Same point.toList (kind.directory root number).toList := by
  obtain ⟨before, after, whole, read, last⟩ := mem_entries_iff_last.mp entry
  obtain ⟨small, zeros, numbered⟩ := number?_eq_some_iff.mp read
  cases zeros with
  | zero => exact isNumbered_zero_iff.mp numbered
  | succ zeros =>
      obtain ⟨later, behind, same⟩ :=
        superseded kind number zeros before after point small whole numbered
      have laterRead := number?_eq_some_iff.mpr ⟨small, 0, isNumbered_zero_iff.mpr same⟩
      exact absurd laterRead (last later behind)

/-- Exactly the directories that are named for a number are found if and only if those with zeros in front
of their number are superseded. -/
theorem finds_named_iff_padded_are_superseded (root : String) (points : List String) :
    FindsNamed root points ↔ PaddedAreSuperseded root points := by
  constructor
  · intro finds kind number zeros before after padded small whole numbered
    have listed : padded ∈ points := by
      rw [whole]
      exact List.mem_append_right before List.mem_cons_self
    have read := number?_eq_some_iff.mpr ⟨small, zeros + 1, numbered⟩
    obtain ⟨last, entry⟩ := exists_entry listed read
    have bounded : (number : Int) < 2 ^ 63 := by exact_mod_cast small
    have mapped : Maps (kind.entries (ofPoints root points)) number last :=
      ⟨number, last, entry, rfl, rfl⟩
    obtain ⟨-, -, named⟩ := (finds kind number last (by omega) bounded).mp mapped
    -- The last point with the number is named for it, so it is not the one with zeros but a later one.
    have found := mem_entries_iff.mp entry
    rw [whole, List.filter_append, List.filter_cons, if_pos (decide_eq_true read),
      List.getLast?_append, List.getLast?_cons, Option.some_or] at found
    cases later : (after.filter (number? root kind · = some number)).getLast? with
    | none =>
        rw [later] at found
        obtain rfl : padded = last := Option.some.inj found
        exact absurd (numbered.unique (isNumbered_zero_iff.mpr named)).1 (Nat.succ_ne_zero zeros)
    | some point =>
        rw [later] at found
        obtain rfl : point = last := Option.some.inj found
        exact ⟨point, (List.mem_filter.mp (List.mem_of_getLast? later)).1, named⟩
  · intro superseded kind id path least greatest
    constructor
    · rintro ⟨number, point, entry, rfl, same⟩
      obtain ⟨before, after, whole, -, -⟩ := mem_entries_iff_last.mp entry
      have listed : point ∈ points := by
        rw [whole]
        exact List.mem_append_right before List.mem_cons_self
      exact ⟨Int.natCast_nonneg number, ⟨point, listed, same⟩,
        same.symm.trans (superseded.named_of_entry entry)⟩
    · rintro ⟨natural, ⟨point, listed, same⟩, named⟩
      obtain ⟨number, rfl⟩ := Int.eq_ofNat_of_zero_le natural
      have small : number < 2 ^ 63 := by exact_mod_cast greatest
      have read := number?_eq_some_iff.mpr ⟨small, 0, isNumbered_zero_iff.mpr (same.trans named)⟩
      obtain ⟨last, entry⟩ := exists_entry listed read
      exact ⟨number, last, entry, rfl, (superseded.named_of_entry entry).trans named.symm⟩

/-- A directory with zeros in front of its number is found as well, although no number is named so. -/
theorem padded_directory_is_found :
    ¬ FindsNamed "/run/user/1000/arco" ["/run/user/1000/arco/repo-007"] := by
  intro finds
  have numbered : IsNumbered "/run/user/1000/arco" .repository 2 7 "/run/user/1000/arco/repo-007" := by
    rw [IsNumbered, Decimal.digits_of_lt (by decide)]
    decide
  have read := number?_eq_some_iff.mpr ⟨by decide, 2, numbered⟩
  obtain ⟨point, entry⟩ := exists_entry (List.mem_singleton_self _) read
  have listed : point = "/run/user/1000/arco/repo-007" := by
    have member := List.mem_of_getLast? (mem_entries_iff.mp entry)
    exact List.mem_singleton.mp (List.mem_filter.mp member).1
  have mapped : Maps (MountKind.repository.entries (ofPoints "/run/user/1000/arco"
      ["/run/user/1000/arco/repo-007"])) (7 : Nat) point := ⟨7, point, entry, rfl, rfl⟩
  obtain ⟨-, -, named⟩ := (finds .repository (7 : Nat) point (by decide) (by decide)).mp mapped
  rw [listed] at named
  exact absurd (numbered.unique (isNumbered_zero_iff.mpr named)).1 (by decide)

end Mounts

end BackupClient
