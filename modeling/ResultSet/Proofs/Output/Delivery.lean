import ResultSet.Proofs.Output.Assembly
import ResultSet.Proofs.Output.Run

/-!
# Delivery of assembled rows

What becomes of a conversion when the sink takes every batch: the lines that were
assembled are handed over in one batch, or nothing is (`Writer.HandedOver`).  Nothing is also
where a moment without a date was met.

`Writer.Ready` gathers what is known of a writer of references with such a sink, once
it was set up.  `ready_run` says that any history leaves it so, failed appends and
blocks of any length included.
-/

namespace ResultSet

/-- A sink that takes every batch. -/
def Sink.accepting : Sink := .new fun _ _ => none

namespace Writer

/-- The sink takes every batch. -/
def Accepts (w : Writer RowBuffer) : Prop :=
  ∃ sink, w.sink = some sink ∧ ∀ offers batch, sink.refuse offers batch = none

/-- The lines were handed over in one batch.  Or one of them is longer than the limit, or one
of the moments that are written has no date, the append failed with this, and nothing was
handed over. -/
inductive HandedOver (w w' : Writer RowBuffer) (limit : Nat) (lines : List Bytes)
    (moments : Moment → Prop) : Except WriterError Unit → Prop where
  | delivered (hlines : ∀ line ∈ lines, line.length ≤ limit)
      (hdated : ∀ m, moments m → m.Dated) (hoffers : w'.offers = w.offers ++ [⟨⟨lines⟩, none⟩]) :
      HandedOver w w' limit lines moments (.ok ())
  | tooLarge {result : Except WriterError Unit} (hline : ∃ line ∈ lines, limit < line.length)
      (hresult : RowTooLarge limit result) (hoffers : w'.offers = w.offers) :
      HandedOver w w' limit lines moments result
  | undated {e : WriterError} (he : e.Undated moments) (hoffers : w'.offers = w.offers) :
      HandedOver w w' limit lines moments (.error e)

theorem finish_handedOver {base w : Writer RowBuffer} {limit : Nat} {lines : List Bytes}
    {moments : Moment → Prop} {pending : PendingBatch} {converted : Except WriterError Unit}
    (hsink : w.sink = base.sink) (haccepts : base.Accepts)
    (hcomplete : converted = .ok () → pending.state = .complete)
    (h : Assembled limit lines moments pending.batch converted) :
    base.HandedOver (w.finish pending converted).2 limit lines moments
      (w.finish pending converted).1 := by
  have hkept : w.offers = base.offers := by rw [offers, offers, hsink]
  cases h with
  | fits hlines hdated hrows =>
    obtain ⟨sink, hbase, hrefuse⟩ := haccepts
    have hoffers : base.offers = sink.offers := by rw [offers, hbase]
    unfold finish PendingBatch.deliver Sink.offer
    rw [hsink, hbase]
    dsimp only
    rw [if_pos (hcomplete rfl), hrefuse, ← hrows]
    refine .delivered (by rw [hrows]; exact hlines) hdated ?_
    rw [hoffers]
    rfl
  | tooLarge hline hresult =>
    obtain ⟨size, hsize, hresult⟩ := hresult
    subst hresult
    rw [finish_error]
    exact .tooLarge hline ⟨size, hsize, rfl⟩ hkept
  | undated he =>
    rw [finish_error]
    exact .undated he hkept

section HandedOver

variable {w w' : Writer RowBuffer} {limit : Nat} {lines : List Bytes} {moments : Moment → Prop}
  {result : Except WriterError Unit} (h : w.HandedOver w' limit lines moments result)
include h

/-- An append succeeds exactly if all lines fit and all moments have dates. -/
theorem HandedOver.ok_iff :
    result = .ok () ↔ (∀ m, moments m → m.Dated) ∧ ∀ line ∈ lines, line.length ≤ limit := by
  cases h with
  | delivered hlines hdated _ => exact ⟨fun _ => ⟨hdated, hlines⟩, fun _ => rfl⟩
  | tooLarge hline hresult _ =>
    obtain ⟨line, hmem, hlong⟩ := hline
    obtain ⟨size, _, hresult⟩ := hresult
    refine ⟨fun hok => ?_, fun hall => ?_⟩
    · rw [hresult] at hok
      cases hok
    · exact absurd (hall.2 line hmem) (by omega)
  | undated he _ =>
    obtain ⟨m, hm, hundated, rfl⟩ := he
    exact ⟨nofun, fun hall => absurd (hall.1 m hm) hundated⟩

theorem HandedOver.of_ok (hok : result = .ok ()) :
    w'.offers = w.offers ++ [⟨⟨lines⟩, none⟩] := by
  cases h with
  | delivered _ _ hoffers => exact hoffers
  | tooLarge _ hresult _ =>
    obtain ⟨size, _, hresult⟩ := hresult
    rw [hresult] at hok
    cases hok
  | undated _ _ => cases hok

/-- An append that fails has met a long line or a moment without a date. -/
theorem HandedOver.of_failed (hfailed : result ≠ .ok ()) :
    w'.offers = w.offers ∧
      ((∃ line ∈ lines, limit < line.length) ∧ RowTooLarge limit result ∨
        ∃ m, moments m ∧ ¬m.Dated ∧ result = .error (.undated m.day.val)) := by
  cases h with
  | delivered _ _ _ => exact absurd rfl hfailed
  | tooLarge hline hresult hoffers => exact ⟨hoffers, .inl ⟨hline, hresult⟩⟩
  | undated he hoffers =>
    obtain ⟨m, hm, hundated, rfl⟩ := he
    exact ⟨hoffers, .inr ⟨m, hm, hundated, rfl⟩⟩

/-- Where all moments have dates, a long line is what an append fails with. -/
theorem HandedOver.of_tooLong (hdated : ∀ m, moments m → m.Dated)
    (hline : ∃ line ∈ lines, limit < line.length) :
    RowTooLarge limit result ∧ w'.offers = w.offers := by
  obtain ⟨line, hmem, hlong⟩ := hline
  have hfailed : result ≠ .ok () := fun hok => by
    have hfits := (h.ok_iff.1 hok).2 line hmem
    omega
  obtain ⟨hoffers, ⟨-, hresult⟩ | ⟨m, hm, hundated, -⟩⟩ := h.of_failed hfailed
  · exact ⟨hresult, hoffers⟩
  · exact absurd (hdated m hm) hundated

end HandedOver

/-- A writer of references that was set up, with a sink that takes every batch. -/
structure Ready (w : Writer RowBuffer) (vectorized : Bool) (refs : List Reference)
    (config : WriterConfig) : Prop where
  coherent : w.Coherent
  exprs_eq : w.exprs = .ofReferences vectorized refs
  config_eq : w.config = config
  initialized : w.encoder.isSome = true
  accepts : w.Accepts

/-- Any history that sets the writer up leaves it ready. -/
theorem ready_run (vectorized : Bool) (refs : List Reference) {config : WriterConfig}
    (hsize : 0 < config.batchSize) {calls : List WriterCall} (hinit : .init ∈ calls) :
    ((forText (some .accepting) (.ofReferences vectorized refs) config).run calls).Ready
      vectorized refs config := by
  have hstart := coherent_forText (some fun _ _ => none) vectorized refs config
  have hsetup := sameSetup_run hstart calls
  refine ⟨coherent_run hstart calls, hsetup.exprs_eq, hsetup.config_eq,
    initialized_run hstart rfl hsize hinit, ?_⟩
  obtain ⟨sink, hsink, hrefuse⟩ := Option.map_eq_some_iff.1 hsetup.refuse_eq
  refine ⟨sink, hsink, fun offers batch => ?_⟩
  rw [hrefuse]
  rfl

end Writer

end ResultSet
