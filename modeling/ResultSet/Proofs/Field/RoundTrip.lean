import ResultSet.Proofs.Field.Plain
import ResultSet.Proofs.Json.Decoding
import ResultSet.Proofs.Json.Render

/-!
# Fields through JSON

A field without doubles is written as a document of integers, strings, lists and records
(`toJson_written`), so its text is read back as that document.  The decoder then reads the
field itself from the document (`decodes_toJson`): the case names the kind, and the payload
is read by the decoder of that kind.  Both are inductions over nested fields.

An array and a tuple take two levels of depth, one for the case and one for the list.
-/

namespace ResultSet

open Json

namespace Field

/-! ## Doubles inside a field -/

mutual

/-- There is a double in the field, at any depth. -/
def hasDouble : Field → Bool
  | .float64 _ => true
  | .array fields => anyDouble fields
  | .tuple fields => anyDouble fields
  | _ => false

/-- There is a double in one of the fields. -/
def anyDouble : List Field → Bool
  | [] => false
  | f :: fields => f.hasDouble || anyDouble fields

end

theorem hasDouble_of_anyDouble {fields : List Field} (h : anyDouble fields = false) :
    ∀ f ∈ fields, f.hasDouble = false := by
  induction fields with
  | nil => simp
  | cons f fields ih =>
    rw [anyDouble, Bool.or_eq_false_iff] at h
    intro g hg
    rcases List.mem_cons.1 hg with rfl | hg
    · exact h.1
    · exact ih h.2 g hg

theorem hasDouble_elements {f : Field} (h : f.hasDouble = false) :
    ∀ element ∈ f.elements, element.hasDouble = false := by
  cases f with
  | array fields => exact hasDouble_of_anyDouble (by rwa [hasDouble] at h)
  | tuple fields => exact hasDouble_of_anyDouble (by rwa [hasDouble] at h)
  | _ => simp [elements]

/-! ## Documents of fields -/

theorem listToJson_eq (fields : List Field) : listToJson fields = fields.map toJson := by
  induction fields with
  | nil => rfl
  | cons f fields ih => rw [listToJson, ih, List.map_cons]

theorem isUnescaped_name (kind : FieldKind) : IsUnescaped kind.name.toList := by
  have hall : ∀ kind ∈ FieldKind.all, IsUnescaped kind.name.toList := by decide
  exact hall kind kind.mem_all

theorem written_tagged (kind : FieldKind) {payload : Json} (h : Written payload) :
    Written (tagged kind.name payload) := by
  apply Written.record
  · simpa using isUnescaped_name kind
  · simpa using h

theorem written_bytes (v : Bytes) : Written (bytes v) := by
  apply Written.array
  intro item hitem
  obtain ⟨b, -, rfl⟩ := List.mem_map.1 hitem
  exact .int _

/-- Every field without doubles is written as a document that is read back. -/
theorem toJson_written {f : Field} (h : f.hasDouble = false) : Written f.toJson := by
  induction f using inductionOn with
  | step f ih =>
    have helements : ∀ item ∈ f.elements.map toJson, Written item := by
      intro item hitem
      obtain ⟨element, hmem, rfl⟩ := List.mem_map.1 hitem
      exact ih element hmem (hasDouble_elements h element hmem)
    cases f with
    | null => exact .text _
    | uint64 v => exact written_tagged .uint64 (.int _)
    | int64 v => exact written_tagged .int64 (.int _)
    | float64 v => simp [hasDouble] at h
    | uint128 v => exact written_tagged .uint128 (.int _)
    | int128 v => exact written_tagged .int128 (.int _)
    | string v => exact written_tagged .string (written_bytes v)
    | array fields =>
      rw [toJson, listToJson_eq]
      exact written_tagged .array (.array helements)
    | tuple fields =>
      rw [toJson, listToJson_eq]
      exact written_tagged .tuple (.array helements)
    | decimal width v =>
      apply written_tagged (.decimal width)
      apply Written.record
      · simp; decide
      · simp [Written.int]
    | aggregateState v =>
      apply written_tagged .aggregateState
      apply Written.record
      · simp; decide
      · simp [Written.text, written_bytes]

/-! ## Reading a case -/

theorem find?_name (kind : FieldKind) :
    (FieldKind.all.find? fun k => k.name.toList == kind.name.toList) = some kind := by
  have hall : ∀ kind ∈ FieldKind.all,
      (FieldKind.all.find? fun k => k.name.toList == kind.name.toList) = some kind := by decide
  exact hall kind kind.mem_all

theorem decodeKind_tagged (kind : FieldKind) (limit : Nat) (payload : Json) :
    decodeKind (limit + 1) (tagged kind.name payload) = some (kind, some (limit, payload)) := by
  rw [decodeKind, case?_tagged, Option.bind_some]
  dsimp only
  rw [find?_name, Option.map_some]

theorem decodeKind_tagged_zero (kind : FieldKind) (payload : Json) :
    decodeKind 0 (tagged kind.name payload) = none := rfl

/-- Whatever reads the items, it is not asked for a payload that holds no field. -/
theorem decodeWith_scalar {kind : FieldKind} (hkind : kind ≠ .null ∧ kind ≠ .array ∧ kind ≠ .tuple)
    (items : List Json → Option (List Field)) (limit : Nat) (payload : Json) :
    decodeWith items (limit + 1) (tagged kind.name payload) = decodeScalar kind limit payload := by
  obtain ⟨hnull, harray, htuple⟩ := hkind
  rw [decodeWith, decodeKind_tagged]
  cases kind <;> first | rfl | contradiction

theorem decodes_scalar (kind : FieldKind) (hkind : kind ≠ .null ∧ kind ≠ .array ∧ kind ≠ .tuple)
    {payload : Json} {f : Field} (h : Decodes (decodeScalar kind) payload f) :
    Decodes decode (tagged kind.name payload) f := by
  intro limit
  have hdecode (limit : Nat) : decode (limit + 1) (tagged kind.name payload) =
      decodeScalar kind limit payload := by
    cases limit with
    | zero => exact decodeWith_scalar hkind _ 0 payload
    | succ limit => exact decodeWith_scalar hkind _ (limit + 1) payload
  cases limit with
  | zero =>
    simp [decode, decodeWith, decodeKind_tagged_zero]
  | succ limit =>
    rw [hdecode, h limit, depth_tagged]
    simp

/-- A list of fields is read when its case, its list and its deepest item fit the limit. -/
theorem decodes_fields {kind : FieldKind} {make : List Field → Field} {fields : List Field}
    (h : ∀ element ∈ fields, Decodes decode element.toJson element)
    (hread : ∀ items limit list,
      decodeWith items (limit + 1) (tagged kind.name (.array list)) = (items list).map make) :
    Decodes decode (tagged kind.name (.array (fields.map toJson))) (make fields) := by
  intro limit
  rw [depth_tagged, depth_array]
  match limit with
  | 0 => simp [decode, decodeWith, decodeKind_tagged_zero]
  | 1 =>
    -- the list is not looked into
    rw [decode, hread, if_neg (by omega), Option.map_none]
    simp
  | limit + 2 =>
    rw [decode, hread, mapM_decodes h limit]
    by_cases hdepth : depthOfItems (fields.map toJson) ≤ limit <;> simp [hdepth]

theorem decodeWith_array (items : List Json → Option (List Field)) (limit : Nat)
    (list : List Json) :
    decodeWith items (limit + 1) (tagged FieldKind.array.name (.array list)) =
      (items list).map .array := by
  rw [decodeWith, decodeKind_tagged]

theorem decodeWith_tuple (items : List Json → Option (List Field)) (limit : Nat)
    (list : List Json) :
    decodeWith items (limit + 1) (tagged FieldKind.tuple.name (.array list)) =
      (items list).map .tuple := by
  rw [decodeWith, decodeKind_tagged]

/-! ## Fields read back -/

/-- The decoder reads a field without doubles from its document. -/
theorem decodes_toJson {f : Field} (h : f.hasDouble = false) : Decodes decode f.toJson f := by
  induction f using inductionOn with
  | step f ih =>
    have helements : ∀ element ∈ f.elements, Decodes decode element.toJson element :=
      fun element hmem => ih element hmem (hasDouble_elements h element hmem)
    cases f with
    | null =>
      intro limit
      match limit with
      | 0 => rfl
      | 1 => rfl
      | limit + 2 => rfl
    | uint64 v =>
      have hv := (decodes_unsigned (by decide) v).map Field.uint64
      exact decodes_scalar .uint64 (by simp) hv
    | int64 v =>
      have hv := (decodes_signed (by decide) v).map Field.int64
      exact decodes_scalar .int64 (by simp) hv
    | float64 v => simp [hasDouble] at h
    | uint128 v =>
      have hv := (decodes_unsigned128 v).map Field.uint128
      exact decodes_scalar .uint128 (by simp) hv
    | int128 v =>
      have hv := (decodes_signed128 v).map Field.int128
      exact decodes_scalar .int128 (by simp) hv
    | string v =>
      have hv := (decodes_bytes v).map Field.string
      exact decodes_scalar .string (by simp) hv
    | array fields =>
      rw [toJson, listToJson_eq]
      exact decodes_fields helements decodeWith_array
    | tuple fields =>
      rw [toJson, listToJson_eq]
      exact decodes_fields helements decodeWith_tuple
    | decimal width v =>
      have hv := v.decodes.map (Field.decimal width)
      exact decodes_scalar (.decimal width) (by simp) hv
    | aggregateState v =>
      have hv := v.decodes.map Field.aggregateState
      exact decodes_scalar .aggregateState (by simp) hv

/-- The text of a field without doubles is read as the field itself: with a reader that allows
any number of levels, exactly when the document has no more levels than that. -/
theorem toJson_roundTrip {f : Field} (h : f.hasDouble = false) :
    (∀ limit, (parse (render f.toJson)).bind (decode limit) =
      if f.toJson.depth ≤ limit then some f else none) ∧
    (f.toJson.depth ≤ maxDepth → decodeText decode (render f.toJson) = some f) := by
  have hparse : parse (render f.toJson) = some f.toJson := parse_render (toJson_written h)
  have hread (limit : Nat) : (parse (render f.toJson)).bind (decode limit) =
      if f.toJson.depth ≤ limit then some f else none := by
    rw [hparse, Option.bind_some]
    exact decodes_toJson h limit
  refine ⟨hread, fun hdepth => ?_⟩
  rw [decodeText, hread maxDepth, if_pos hdepth]

/-- Extreme words, bytes that are no text, a name with control characters and a quote, and
lists inside lists. -/
theorem toJson_roundTrip_nested :
    let f : Field := .tuple [.array [.null, .int64 ⟨-2 ^ (63 : Nat), by decide, by decide⟩],
      .uint128 ⟨2 ^ (128 : Nat) - 1, by decide⟩, .string [0xFF, 0x00, 0xC3],
      .decimal .w128 ⟨⟨-2 ^ (127 : Nat), by decide, by decide⟩, ⟨2 ^ (32 : Nat) - 1, by decide⟩⟩,
      .aggregateState ⟨['"', '\\', '\x01', 'é', '\n'], [0x80]⟩, .array []]
    f.hasDouble = false ∧ f.toJson.depth ≤ maxDepth ∧
      decodeText decode (render f.toJson) = some f := by
  intro f
  have hdouble : f.hasDouble = false := rfl
  have hdepth : f.toJson.depth ≤ maxDepth := by decide
  exact ⟨hdouble, hdepth, (toJson_roundTrip hdouble).2 hdepth⟩

end Field

end ResultSet
