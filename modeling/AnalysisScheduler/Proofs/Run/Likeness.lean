import AnalysisScheduler.Proofs.Run.Deeds

/-!
# Sessions that differ in what their sinks answered

Two sessions are alike if they agree in everything but the notices on the answers of their sinks
(`Session.Alike`). No step looks into the history, so the same step keeps them alike: asking,
resolving, ending a task, and offering results to whatever sinks (`Alike.complete`).
-/

namespace AnalysisScheduler

variable {w : Workspace} {ρ σ σ' : Type}

/-- Whether an event tells of an answer of the sink. -/
def Event.isAnswer : Event w ρ → Bool
  | .noticed n => n.isOfSink
  | _ => false

namespace History

/-- The events apart from the notices on answers of the sink, in order. -/
def unanswered (h : List (Event w ρ)) : List (Event w ρ) := h.filter (!·.isAnswer)

theorem unanswered_append (h more : List (Event w ρ)) :
    unanswered (h ++ more) = unanswered h ++ unanswered more := List.filter_append ..

end History

theorem Sink.unanswered_transcript (sink : Sink σ ρ) (taken : σ) (results : List ρ) :
    History.unanswered (sink.transcript taken results : List (Event w ρ)) =
      results.map .offered := by
  have deaf (n : Notice w) (answer : n.isOfSink = true) :
      Option.guard (!·.isAnswer) (Event.noticed n : Event w ρ) = none :=
    if_neg (Bool.eq_false_iff.1 (congrArg (!·) answer))
  rw [History.unanswered, ← List.filterMap_eq_filter, sink.filterMap_transcript deaf]
  exact congrFun List.filterMap_eq_map _

namespace Session

/-- Agreement in everything but the notices on answers of the sinks. -/
def Alike (s s' : Session w ρ) : Prop :=
  ∃ h, s' = { s with history := h } ∧ History.unanswered h = History.unanswered s.history

namespace Alike

variable {s s' : Session w ρ}

theorem refl (s : Session w ρ) : Alike s s := ⟨s.history, rfl, rfl⟩

/-- What neither looks into the history nor adds to it may happen on both sides. -/
theorem map (alike : Alike s s') {f : Session w ρ → Session w ρ}
    (blind : ∀ s h, f { s with history := h } = { f s with history := h }) :
    Alike (f s) (f s') := by
  obtain ⟨h, rfl, same⟩ := alike
  have untouched := congrArg Session.history (blind s s.history)
  exact ⟨h, blind s h, same.trans (congrArg History.unanswered untouched.symm)⟩

/-- Events that differ in answers only may be added on both sides. -/
theorem extend (alike : Alike s s') {es es' : List (Event w ρ)}
    (likewise : History.unanswered es' = History.unanswered es) :
    Alike { s with history := s.history ++ es } { s' with history := s'.history ++ es' } := by
  obtain ⟨h, rfl, same⟩ := alike
  refine ⟨h ++ es', rfl, ?_⟩
  rw [History.unanswered_append, History.unanswered_append, same, likewise]

theorem note (alike : Alike s s') (n : Notice w) : Alike (s.note n) (s'.note n) :=
  alike.extend rfl

theorem ask (alike : Alike s s') (b : Bear w) :
    Alike (s.ask b).1 (s'.ask b).1 ∧ (s'.ask b).2 = (s.ask b).2 := by
  obtain ⟨h, rfl, same⟩ := alike
  by_cases old : b ∈ s.scheduled
  · unfold Session.ask
    rw [if_pos old, if_pos old]
    exact ⟨note ⟨h, rfl, same⟩ (.rescheduled b), rfl⟩
  · rw [ask_of_new old, ask_of_new (s := { s with history := h }) old]
    refine ⟨⟨h ++ s.interview b, rfl, ?_⟩, rfl⟩
    rw [History.unanswered_append, History.unanswered_append, same]

theorem askAll (alike : Alike s s') (bs : List (Bear w)) :
    Alike (s.askAll bs).1 (s'.askAll bs).1 ∧ (s'.askAll bs).2 = (s.askAll bs).2 := by
  induction bs generalizing s s' with
  | nil => exact ⟨alike, rfl⟩
  | cons b rest ih =>
    obtain ⟨asked, idle⟩ := alike.ask b
    obtain ⟨rests, more⟩ := ih asked
    refine ⟨rests, ?_⟩
    show (s'.ask b).2 ++ ((s'.ask b).1.askAll rest).2 = (s.ask b).2 ++ ((s.ask b).1.askAll rest).2
    rw [idle, more]

theorem release (alike : Alike s s') (b : Bear w) : Alike (s.release b) (s'.release b) := by
  obtain ⟨h, rfl, same⟩ := alike
  have resolved : Alike { s with running := s.running.erase b, graph := s.graph.resolve b }
      { s with running := s.running.erase b, graph := s.graph.resolve b, history := h } :=
    ⟨h, rfl, same⟩
  unfold Session.release
  dsimp only
  split
  · exact resolved
  · exact resolved.note _

theorem settle (alike : Alike s s') (done : List (Bear w)) :
    Alike (s.settle done) (s'.settle done) := by
  -- However far `s` has come, `s'` can come as far with the same bears left.
  have matched : ∃ r', Alike (s.settle done) r' ∧ r'.settle [] = s'.settle done := by
    refine settle_induction
      (P := fun r todo => ∃ r', Alike r r' ∧ r'.settle todo = s'.settle done) ?_ ?_ ⟨s', alike, rfl⟩
    · rintro r b rest busy ⟨_, ⟨h, rfl, same⟩, onward⟩
      refine ⟨_, ⟨h, rfl, same⟩, ?_⟩
      rw [← onward, settle_of_busy (s := { r with history := h }) busy]
    · rintro r b rest idle ⟨_, ⟨h, rfl, same⟩, onward⟩
      obtain ⟨asked, without⟩ := (Alike.release ⟨h, rfl, same⟩ b).askAll (r.graph.freedBy b)
      refine ⟨_, asked, ?_⟩
      rw [← onward, settle_of_idle (s := { r with history := h }) idle, without]
  obtain ⟨r', settled, arrived⟩ := matched
  rw [settle_nil] at arrived
  exact arrived ▸ settled

theorem withdrawDependants (alike : Alike s s') (failed : Bear w) :
    Alike (s.withdrawDependants failed) (s'.withdrawDependants failed) := by
  have graph : s'.graph = s.graph := by
    obtain ⟨h, rfl, _⟩ := alike
    rfl
  unfold Session.withdrawDependants
  rw [graph]
  cases s.graph.allDependantsOf failed with
  | error cycle => exact alike.note _
  | ok dependants =>
    clear graph
    induction dependants generalizing s s' with
    | nil => exact alike
    | cons b rest ih =>
      exact ih ((alike.note (.withdrawn b failed)).map
        (f := fun s => { s with graph := s.graph.resolve b, buffers := s.buffers.erase b })
        fun _ _ => rfl)

theorem absorb (alike : Alike s s') (t : Ticket w ρ) (outcome : Outcome ρ) :
    Alike (s.absorb t outcome) (s'.absorb t outcome) := by
  cases outcome with
  | ok results => exact alike.map (f := (deliver · t.bear results)) fun _ _ => rfl
  | error failure => exact (alike.note _).withdrawDependants t.bear

theorem finish (alike : Alike s s') (t : Ticket w ρ) (outcome : Outcome ρ) :
    Alike (s.finish t outcome) (s'.finish t outcome) :=
  ((alike.absorb t outcome).map (f := (retire · t)) fun _ _ => rfl).settle [t.bear]

/-- What has happened on both sides since they were alike differs in answers only. -/
theorem since {r r' : Session w ρ} (earlier : Alike s s') (alike : Alike r r')
    (grown : s.history <+: r.history) (grown' : s'.history <+: r'.history) :
    History.unanswered (r'.since s') = History.unanswered (r.since s) := by
  obtain ⟨h, rfl, before⟩ := earlier
  obtain ⟨h', rfl, same⟩ := alike
  rw [← history_append_since grown, History.unanswered_append] at same
  have whole := history_append_since grown'
  change h ++ _ = h' at whole
  rw [← whole, History.unanswered_append, before] at same
  exact List.append_cancel_left same

/-- The sinks may answer differently. -/
theorem complete (sink : Sink σ ρ) (sink' : Sink σ' ρ) {now : Session w ρ × σ}
    {now' : Session w ρ × σ'} (alike : Alike now.1 now'.1) (t : Ticket w ρ)
    (outcome : Outcome ρ) :
    Alike (Session.complete sink now t outcome).1 (Session.complete sink' now' t outcome).1 := by
  rw [complete_eq, complete_eq]
  refine (alike.finish t outcome).extend ?_
  rw [sink.unanswered_transcript, sink'.unanswered_transcript]

end Alike

end Session

end AnalysisScheduler
