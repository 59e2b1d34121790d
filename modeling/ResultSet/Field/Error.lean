import ResultSet.Field.Kind

/-!
# Field errors

What can go wrong when a field is read or compared, and the text that reports
it.
-/

namespace ResultSet

/-- How a payload is asked for. -/
inductive Access where
  | read
  | update
deriving DecidableEq

/-- An operation on fields that has no result. -/
inductive FieldError where
  /-- the field holds another kind than the one asked for -/
  | badGet (has requested : FieldKind)
  /-- the same, where the caller took the kind for granted -/
  | misuse (access : Access) (has requested : FieldKind)
  /-- aggregate states have no order -/
  | incomparableState (function : Text)
  /-- the states of two different functions were compared -/
  | stateMismatch (left right : Text)
deriving DecidableEq

/-- The name of an access in reports of a misuse. -/
def Access.name : Access → String
  | .read => "get"
  | .update => "get_mut"

/-- The name of a field error in answers. -/
def FieldError.code : FieldError → String
  | .badGet _ _ => "BadGet"
  | .misuse _ _ _ => "Misuse"
  | .incomparableState _ => "IncomparableAggregateState"
  | .stateMismatch _ _ => "AggregateStateMismatch"

/-- The report of a field error. -/
def FieldError.message : FieldError → Text
  | .badGet has requested =>
    "Bad get: has ".toList ++ has.name.toList ++ ", requested ".toList ++ requested.name.toList
  | .misuse access has requested =>
    "called \x60Field::".toList ++ access.name.toList ++ "::<".toList ++
      requested.name.toList ++ ">()\x60 on a ".toList ++ has.name.toList ++ " field".toList
  | .incomparableState function =>
    "Operator < is not implemented for aggregate function state '".toList ++ function ++ ['\'']
  | .stateMismatch left right =>
    "Comparing aggregate function states of different types: ".toList ++ left ++
      " and ".toList ++ right

end ResultSet
