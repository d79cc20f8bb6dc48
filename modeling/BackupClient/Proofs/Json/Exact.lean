import BackupClient.Proofs.Json.Records

/-!
Documents without doubles.

Only a double may be read otherwise than it was written.  A document of texts, flags and whole numbers of at
most sixty-four bits is read from its own text as it was.
-/

namespace BackupClient.Json

variable {value : Json} {depth : Nat} {items : List Json} {members : List (String × Json)}
  {α : Type} {encode : α → Json} {values : List α}

/-- A value that can stand inside so many containers and is read as it was written. -/
structure ExactAt (depth : Nat) (value : Json) : Prop where
  fits : FitsAt depth value
  same : value.reread = value

theorem ExactAt.parse?_write (exact : ExactAt 0 value) : parse? (write value) = some value := by
  rw [exact.fits.parse?_write, exact.same]

theorem exactAt_null : ExactAt depth .null :=
  ⟨.null, by simp [reread]⟩

theorem exactAt_bool (value : Bool) : ExactAt depth (.bool value) :=
  ⟨.bool value, by simp [reread]⟩

theorem exactAt_str (text : String) : ExactAt depth (.str text) :=
  ⟨.str text, by simp [reread]⟩

theorem exactAt_int {number : Int} (least : -2 ^ 63 ≤ number) (greatest : number < 2 ^ 64) :
    ExactAt depth (.int number) :=
  ⟨.int least greatest, by simp [reread]⟩

theorem exactAt_ofNat {number : Nat} (small : number < 2 ^ 64) : ExactAt depth (ofNat number) := by
  apply exactAt_int
  · omega
  · omega

theorem exactAt_arr (shallow : depth < depthLimit)
    (each : ∀ item ∈ items, ExactAt (depth + 1) item) : ExactAt depth (.arr items) := by
  refine ⟨.arr shallow fun item listed => (each item listed).fits, ?_⟩
  have same : items.map reread = items.map id :=
    List.map_congr_left fun item listed => (each item listed).same
  rw [reread, rereadItems_eq_map, same, List.map_id]

theorem exactAt_obj (shallow : depth < depthLimit)
    (each : ∀ member ∈ members, ExactAt (depth + 1) member.2) : ExactAt depth (.obj members) := by
  refine ⟨.obj shallow fun member listed => (each member listed).fits, ?_⟩
  have same : (members.map fun member => (member.1, member.2.reread)) = members.map id :=
    List.map_congr_left fun member listed => Prod.ext rfl (each member listed).same
  rw [reread, rereadMembers_eq_map, same, List.map_id]

theorem exactAt_obj_iff :
    ExactAt depth (.obj members) ↔
      depth < depthLimit ∧ ∀ member ∈ members, ExactAt (depth + 1) member.2 := by
  constructor
  · rintro ⟨fits, same⟩
    rw [reread, rereadMembers_eq_map, Json.obj.injEq] at same
    cases fits with
    | obj shallow fit =>
        refine ⟨shallow, ?_⟩
        intro member listed
        have kept := List.map_inj_left.mp (same.trans (List.map_id members).symm) member listed
        exact ⟨fit member listed, congrArg Prod.snd kept⟩
  · rintro ⟨shallow, each⟩
    exact exactAt_obj shallow each

theorem exactAt_ofList (shallow : depth < depthLimit)
    (each : ∀ value ∈ values, ExactAt (depth + 1) (encode value)) :
    ExactAt depth (ofList encode values) := by
  apply exactAt_arr shallow
  intro item listed
  obtain ⟨value, known, rfl⟩ := List.mem_map.mp listed
  exact each value known

theorem exactAt_ofOption {held : Option α} (each : ∀ value ∈ held, ExactAt depth (encode value)) :
    ExactAt depth (ofOption encode held) := by
  cases held with
  | none => exact exactAt_null
  | some value => exact each value rfl

end BackupClient.Json
