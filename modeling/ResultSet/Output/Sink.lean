import ResultSet.Output.Error

/-!
# Batches and sinks

A batch is a list of encoded rows.  A sink is asked to take one batch after the
other and may refuse any of them; what it was offered and how it answered stays
on record.
-/

namespace ResultSet

/-- Encoded rows in source order. -/
structure Batch where
  rows : List Bytes
deriving DecidableEq

namespace Batch

/-- A batch without rows. -/
def empty : Batch := ⟨[]⟩

/-- The number of rows. -/
def length (b : Batch) : Nat := b.rows.length

/-- The batch with one more row. -/
def push (b : Batch) (row : Bytes) : Batch := ⟨b.rows ++ [row]⟩

end Batch

/-- A batch that a sink was asked to take. -/
structure Offer where
  batch : Batch
  /-- why the sink refused it, nothing when it was accepted -/
  refusal : Option SinkError
deriving DecidableEq

/-- A receiver of batches. -/
structure Sink where
  /-- why a batch is refused, given the offers before it -/
  refuse : List Offer → Batch → Option SinkError
  /-- what the sink was offered so far -/
  offers : List Offer

namespace Sink

/-- A sink that was not offered anything yet. -/
def new (refuse : List Offer → Batch → Option SinkError) : Sink := ⟨refuse, []⟩

/-- Offers a batch. -/
def offer (s : Sink) (batch : Batch) : Option SinkError × Sink :=
  let refusal := s.refuse s.offers batch
  (refusal, { s with offers := s.offers ++ [⟨batch, refusal⟩] })

/-- The batches that the sink took. -/
def accepted (s : Sink) : List Batch :=
  (s.offers.filter fun o => o.refusal.isNone).map (·.batch)

end Sink

end ResultSet
