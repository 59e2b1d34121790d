import ResultSet.Field.Json
import ResultSet.Proofs.Json.Number

/-!
# What a decoder reads

A decoder is given the number of levels that a document may be nested.  `Json.depth` counts
the levels of a document, and `Decodes decoder document v` says that the decoder reads `v`
whenever the levels suffice, and nothing otherwise.  The lemmas give this for the documents
that integers, byte strings, lists and the records of decimals and aggregate states are
written as.
-/

namespace ResultSet

namespace Json

/-! ## Depth -/

mutual

/-- The number of arrays and objects around the innermost scalar. -/
def depth : Json → Nat
  | .array items => depthOfItems items + 1
  | .object entries => depthOfEntries entries + 1
  | _ => 0

/-- The depth of the deepest item. -/
def depthOfItems : List Json → Nat
  | [] => 0
  | item :: items => max (depth item) (depthOfItems items)

/-- The depth of the deepest value. -/
def depthOfEntries : List (JsonKey × Json) → Nat
  | [] => 0
  | (_, v) :: entries => max (depth v) (depthOfEntries entries)

end

@[simp] theorem depth_int (v : Int) : (int v).depth = 0 := by simp [int, depth]

@[simp] theorem depth_text (content : Text) : (text content).depth = 0 := by simp [text, depth]

@[simp] theorem depth_array (items : List Json) :
    (Json.array items).depth = depthOfItems items + 1 := by
  simp [depth]

@[simp] theorem depth_tagged (name : String) (payload : Json) :
    (tagged name payload).depth = payload.depth + 1 := by
  simp [tagged, record, depth, depthOfEntries]

theorem depth_record_pair (a b : String) (x y : Json) :
    (record [(a, x), (b, y)]).depth = max x.depth y.depth + 1 := by
  simp [record, depth, depthOfEntries]

/-- The decoder reads the value from the document, as long as the document is not nested
deeper than it may be. -/
def Decodes {α : Type} (decoder : Decoder α) (document : Json) (v : α) : Prop :=
  ∀ limit, decoder limit document = if document.depth ≤ limit then some v else none

theorem Decodes.map {α β : Type} {decoder : Decoder α} {document : Json} {v : α}
    (h : Decodes decoder document v) (g : α → β) :
    Decodes (fun limit document => (decoder limit document).map g) document (g v) := by
  intro limit
  dsimp only
  rw [h limit]
  by_cases hdepth : document.depth ≤ limit <;> simp [hdepth]

/-! ## Scalars -/

theorem decodes_signed {bits : Nat} (hbits : bits ≤ 64) (v : Signed bits) :
    Decodes (decodeSigned bits) (int v.val) v := by
  intro limit
  simp [decodeSigned_int hbits]

theorem decodes_unsigned {bits : Nat} (hbits : bits ≤ 64) (v : Unsigned bits) :
    Decodes (decodeUnsigned bits) (int v.val) v := by
  intro limit
  simp [decodeUnsigned_int hbits]

theorem decodes_signed128 (v : Signed 128) : Decodes decodeSigned128 (int v.val) v := by
  intro limit
  simp [decodeSigned128_int]

theorem decodes_unsigned128 (v : Unsigned 128) : Decodes decodeUnsigned128 (int v.val) v := by
  intro limit
  simp [decodeUnsigned128_int]

theorem decodes_string (content : Text) : Decodes decodeString (text content) content := by
  intro limit
  simp [decodeString, text, depth]

/-! ## Lists -/

/-- Items are read one by one, and the deepest one decides. -/
theorem mapM_decodes {α : Type} {decoder : Decoder α} {write : α → Json} {values : List α}
    (h : ∀ v ∈ values, Decodes decoder (write v) v) (limit : Nat) :
    (values.map write).mapM (decoder limit) =
      if depthOfItems (values.map write) ≤ limit then some values else none := by
  induction values with
  | nil => simp [depthOfItems]
  | cons v values ih =>
    have hv := h v List.mem_cons_self limit
    have hvalues := ih fun v hmem => h v (List.mem_cons_of_mem _ hmem)
    rw [List.map_cons, List.mapM_cons, hv, hvalues]
    simp only [depthOfItems, Nat.max_le]
    by_cases hfirst : (write v).depth ≤ limit <;>
      by_cases hrest : depthOfItems (values.map write) ≤ limit <;>
        simp [hfirst, hrest]

theorem decodes_list {α : Type} {decoder : Decoder α} {write : α → Json} {values : List α}
    (h : ∀ v ∈ values, Decodes decoder (write v) v) :
    Decodes (decodeList decoder) (.array (values.map write)) values := by
  intro limit
  cases limit with
  | zero => simp [decodeList, items?]
  | succ limit => simp [decodeList, items?, mapM_decodes h limit]

/-- The word of eight bits that a byte is read as. -/
def byteWord (b : UInt8) : Unsigned 8 := ⟨b.toNat, b.toNat_lt⟩

theorem decodes_bytes (v : Bytes) : Decodes decodeBytes (bytes v) v := by
  have hwords : Decodes (decodeList (decodeUnsigned 8))
      (.array ((v.map byteWord).map fun b => int b.val)) (v.map byteWord) :=
    decodes_list fun b _ => decodes_unsigned (by decide) b
  have hbytes : (.array ((v.map byteWord).map fun b => int b.val) : Json) = bytes v := by
    rw [List.map_map]
    rfl
  rw [hbytes] at hwords
  intro limit
  rw [decodeBytes, hwords limit]
  by_cases h : (bytes v).depth ≤ limit <;> simp [h, byteWord, Function.comp_def]

/-! ## Records and cases -/

theorem fields?_record_pair {a b : String} (h : a.toList ≠ b.toList) (x y : Json) (limit : Nat) :
    fields? [a, b] (limit + 1) (record [(a, x), (b, y)]) = some (limit, [some x, some y]) := by
  simp [fields?, record, lookup?, JsonKey.plain, h, h.symm]

theorem fields?_record_zero (keys : List String) (entries : List (String × Json)) :
    fields? keys 0 (record entries) = none := rfl

theorem case?_tagged (limit : Nat) (name : String) (payload : Json) :
    case? (limit + 1) (tagged name payload) = some (name.toList, some (limit, payload)) := rfl

end Json

open Json

theorem FixedDecimal.decodes {w : DecimalWidth} (d : FixedDecimal w) :
    Decodes (FixedDecimal.decode w) d.toJson d := by
  have hvalue : Decodes (decodeValue w) (int d.value.val) d.value := by
    cases w with
    | w32 => exact decodes_signed (by decide) d.value
    | w64 => exact decodes_signed (by decide) d.value
    | w128 => exact decodes_signed128 d.value
  intro limit
  rw [FixedDecimal.toJson, depth_record_pair]
  cases limit with
  | zero => simp [FixedDecimal.decode, fields?_record_zero]
  | succ limit =>
    have hscale := decodes_unsigned (by decide) d.scale limit
    rw [FixedDecimal.decode, FixedDecimal.keys, fields?_record_pair (by decide)]
    simp [hvalue limit, hscale]

theorem AggregateState.decodes (v : AggregateState) :
    Decodes AggregateState.decode v.toJson v := by
  intro limit
  rw [AggregateState.toJson, depth_record_pair]
  cases limit with
  | zero => simp [AggregateState.decode, fields?_record_zero]
  | succ limit =>
    have hfunction := decodes_string v.function limit
    have hdata := decodes_bytes v.data limit
    rw [AggregateState.decode, AggregateState.keys, fields?_record_pair (by decide)]
    dsimp only
    rw [hfunction, hdata]
    by_cases h : (bytes v.data).depth ≤ limit <;> simp [h]

end ResultSet
