import BackupClient.Proofs.Json.Objects
import BackupClient.Proofs.Json.Readable
import Mathlib.Data.List.Nodup

/-!
Records out of values that are written and read again.

A field of a record stands one level below it, and a list survives being written and read again just if each
of its entries does.
-/

namespace BackupClient.Json

variable {value held : Json} {fields : Fields} {names : List String} {name other : String}
  {members : List (String × Json)} {positional : Bool} {depth bound : Nat}
  {α : Type} {decode : Json → Option α} {result missing : α}

/-! ### Fields -/

theorem FitsAt.given (fits : FitsAt depth value) (read : fields? names value = some fields) :
    ∀ member ∈ fields.given, FitsAt (depth + 1) member.2 := by
  unfold fields? at read
  split at read
  case h_1 members =>
      cases fits with
      | obj shallow fit =>
          split at read
          case isTrue => cases read
          case isFalse =>
              obtain rfl := Option.some.inj read
              exact fun member listed => fit member (List.mem_of_mem_filter listed)
  case h_2 items =>
      cases fits with
      | arr shallow fit =>
          split at read
          case isFalse => cases read
          case isTrue =>
              obtain rfl := Option.some.inj read
              exact fun member listed => fit member.2 (List.of_mem_zip listed).2
  case h_3 => cases read

theorem FitsAt.find? (fits : FitsAt depth value) (read : fields? names value = some fields)
    (found : fields.find? name = some held) : FitsAt (depth + 1) held := by
  obtain ⟨member, known, rfl⟩ := Option.map_eq_some_iff.mp found
  exact fits.given read member (List.mem_of_find?_eq_some known)

theorem Fields.exists_of_required (read : fields.required name decode = some result) :
    ∃ value, fields.find? name = some value ∧ decode value = some result :=
  Option.bind_eq_some_iff.mp read

theorem Fields.of_withDefault (read : fields.withDefault name missing decode = some result) :
    (∃ value, fields.find? name = some value ∧ decode value = some result) ∨ result = missing := by
  unfold Fields.withDefault at read
  split at read
  case h_1 value found => exact .inl ⟨value, found, read⟩
  case h_2 => exact .inr (Option.some.inj read).symm

theorem fields?_of_distinct (known : ∀ member ∈ members, member.1 ∈ names)
    (distinct : (members.map (·.1)).Nodup) : fields? names (.obj members) = some ⟨members, false⟩ := by
  have once : ∀ name ∈ names, (members.filter (·.1 = name)).length ≤ 1 := by
    intro name _
    have counted := List.nodup_iff_count_le_one.mp distinct name
    rw [List.count_eq_countP, List.countP_map, List.countP_eq_length_filter] at counted
    simpa [Function.comp_def, beq_eq_decide] using counted
  have all : members.filter (fun member => names.contains member.1) = members :=
    List.filter_eq_self.mpr fun member listed => List.contains_iff_mem.mpr (known member listed)
  rw [fields?_obj once, all]

theorem bind_fields?_of_distinct {continuation : Fields → Option α}
    (known : ∀ member ∈ members, member.1 ∈ names) (distinct : (members.map (·.1)).Nodup) :
    (fields? names (.obj members)).bind continuation = continuation ⟨members, false⟩ := by
  rw [fields?_of_distinct known distinct, Option.bind_some]

@[simp]
theorem Fields.required_cons_self :
    (Fields.mk ((name, value) :: members) positional).required name decode = decode value := by
  simp [Fields.required, Fields.find?, member?]

theorem Fields.required_cons_of_ne (different : other ≠ name) :
    (Fields.mk ((other, value) :: members) positional).required name decode =
      (Fields.mk members positional).required name decode := by
  simp [Fields.required, Fields.find?, member?, different]

@[simp]
theorem Fields.withDefault_nil :
    (Fields.mk [] positional).withDefault name missing decode = some missing :=
  rfl

@[simp]
theorem Fields.withDefault_cons_self :
    (Fields.mk ((name, value) :: members) positional).withDefault name missing decode =
      decode value := by
  simp [Fields.withDefault, Fields.find?, member?]

theorem Fields.withDefault_cons_of_ne (different : other ≠ name) :
    (Fields.mk ((other, value) :: members) positional).withDefault name missing decode =
      (Fields.mk members positional).withDefault name missing decode := by
  simp [Fields.withDefault, Fields.find?, member?, different]

theorem lt_of_decodeNat {number : Nat} (read : decodeNat bound value = some number) :
    number < bound := by
  unfold decodeNat at read
  split at read
  case h_1 =>
      split at read
      case isTrue within =>
          obtain rfl := Option.some.inj read
          omega
      case isFalse => cases read
  case h_2 => cases read

theorem decodeNat_ofNat {number : Nat} (small : number < bound) :
    decodeNat bound (ofNat number) = some number := by
  simp [decodeNat, ofNat, small]

theorem decodeInt64_int {number : Int} (least : -2 ^ 63 ≤ number) (greatest : number < 2 ^ 63) :
    decodeInt64 (.int number) = some number := by
  rw [decodeInt64, if_pos ⟨least, greatest⟩]

/-! ### Options and lists -/

theorem decodeOption_of_ne_null (something : value ≠ .null) :
    decodeOption decode value = (decode value).map some := by
  unfold decodeOption
  split
  case h_1 => exact absurd rfl something
  case h_2 => rfl

/-- What is there and what is not can be told apart, as only what is not there is written as `null`. -/
theorem decodeOption_ofOption {encode : α → Json} {held : Option α}
    (something : ∀ value, encode value ≠ .null)
    (each : ∀ value ∈ held, decode (encode value) = some value) :
    decodeOption decode (ofOption encode held) = some held := by
  cases held with
  | none => rfl
  | some value =>
      rw [ofOption, decodeOption_of_ne_null (something value), each value rfl, Option.map_some]

theorem decodeList_eq_some_iff {results : List α} :
    decodeList decode value = some results ↔
      ∃ items, value = .arr items ∧
        List.Forall₂ (fun item result => decode item = some result) items results := by
  cases value with
  | arr items => simp [decodeList, mapM_eq_some_iff]
  | _ => simp [decodeList]

theorem decodeList_ofList_iff {encode : α → Json} {values : List α} :
    decodeList decode (ofList encode values) = some values ↔
      ∀ value ∈ values, decode (encode value) = some value := by
  rw [decodeList_eq_some_iff, ofList]
  simp [List.forall₂_map_left_iff, List.forall₂_same]

theorem decodeList_strings (texts : List String) :
    decodeList decodeString (ofList .str texts) = some texts :=
  decodeList_ofList_iff.mpr fun _ _ => rfl

theorem decodeList_reread_iff {encode : α → Json} {values : List α} :
    decodeList decode (ofList encode values).reread = some values ↔
      ∀ value ∈ values, decode (encode value).reread = some value := by
  rw [decodeList_eq_some_iff, ofList, reread, rereadItems_eq_map]
  simp [List.forall₂_map_left_iff, List.forall₂_same]

end BackupClient.Json
