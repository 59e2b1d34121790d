import ResultSet.Field.Basic

/-!
# Order and equality of fields

Fields of different kinds are ordered by their tags.  Within a kind, floats use
the IEEE total order, decimals compare by value, and strings, arrays and tuples
compare lexicographically.

Aggregate states have no order.  They can be tested for equality when the same
function produced them.
-/

namespace ResultSet

/-- Lexicographic order of byte strings, byte by byte as unsigned numbers; a proper
start of a string comes before it. -/
def compareBytes (left right : Bytes) : Ordering := Ord.compare left right

namespace Field

mutual

/-- The order of two fields; an error where two aggregate states would decide. -/
def compare : Field → Field → Except FieldError Ordering
  | .null, .null => .ok .eq
  | .uint64 l, .uint64 r => .ok (Ord.compare l.val r.val)
  | .int64 l, .int64 r => .ok (Ord.compare l.val r.val)
  | .float64 l, .float64 r => .ok (Ord.compare l.orderKey r.orderKey)
  | .uint128 l, .uint128 r => .ok (Ord.compare l.val r.val)
  | .int128 l, .int128 r => .ok (Ord.compare l.val r.val)
  | .string l, .string r => .ok (compareBytes l r)
  | .array l, .array r => compareLists l r
  | .tuple l, .tuple r => compareLists l r
  | .decimal w l, .decimal v r =>
    if w = v then .ok (l.compare r)
    else .ok (Ord.compare (FieldKind.decimal w).tag (FieldKind.decimal v).tag)
  | .aggregateState l, .aggregateState _ => .error (.incomparableState l.function)
  | l, r => .ok (Ord.compare l.kind.tag r.kind.tag)

/-- Lexicographic order of lists of fields. -/
def compareLists : List Field → List Field → Except FieldError Ordering
  | [], [] => .ok .eq
  | [], _ :: _ => .ok .lt
  | _ :: _, [] => .ok .gt
  | l :: ls, r :: rs =>
    match compare l r with
    | .ok .eq => compareLists ls rs
    | answer => answer

end

mutual

/-- Equality of two fields; an error where the states of two different functions
would decide. -/
def sameValue : Field → Field → Except FieldError Bool
  | .null, .null => .ok true
  | .uint64 l, .uint64 r => .ok (l == r)
  | .int64 l, .int64 r => .ok (l == r)
  | .float64 l, .float64 r => .ok (l == r)
  | .uint128 l, .uint128 r => .ok (l == r)
  | .int128 l, .int128 r => .ok (l == r)
  | .string l, .string r => .ok (l == r)
  | .array l, .array r => if l.length = r.length then sameValues l r else .ok false
  | .tuple l, .tuple r => if l.length = r.length then sameValues l r else .ok false
  | .decimal w l, .decimal v r => .ok (decide (w = v) && l.sameValue r)
  | .aggregateState l, .aggregateState r =>
    if l.function = r.function then .ok (l.data == r.data)
    else .error (.stateMismatch l.function r.function)
  | _, _ => .ok false

/-- Equality of two lists of fields of one length, element by element. -/
def sameValues : List Field → List Field → Except FieldError Bool
  | l :: ls, r :: rs =>
    match sameValue l r with
    | .ok true => sameValues ls rs
    | answer => answer
  | _, _ => .ok true

end

/-- Equality, false where it is not defined. -/
def equal (l r : Field) : Bool :=
  match l.sameValue r with
  | .ok answer => answer
  | .error _ => false

/-- The order, where it is defined. -/
def order? (l r : Field) : Option Ordering :=
  match l.compare r with
  | .ok answer => some answer
  | .error _ => none

end Field

end ResultSet
