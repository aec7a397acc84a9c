import AnalysisScheduler.Proofs.Run.Log

/-!
# What each bear does

A log read bear by bear: a bear is asked, submits tasks, ends them and offers their results to the
sink (`Deed`). An offered result does not say whose it is, but it comes right after the end of its
task, before any other task ends (`Log.deeds`, `Session.deeds_complete`). So what is offered in a
run is what its endings have brought (`Session.Run.offers_eq`).
-/

namespace AnalysisScheduler

variable {w : Workspace} {ρ σ : Type}

/-- One thing that a bear does in a run. -/
inductive Deed (w : Workspace) (ρ : Type) where
  | asked (bear : Bear w) (deliveries : Deliveries w ρ)
  | submitted (ticket : Ticket w ρ)
  | ended (ending : Ending w ρ)
  | offered (bear : Bear w) (result : ρ)

namespace Deed

/-- Whose deed it is. -/
def bear : Deed w ρ → Bear w
  | asked b _ => b
  | submitted t => t.bear
  | ended e => e.ticket.bear
  | offered b _ => b

def submitted? : Deed w ρ → Option (Ticket w ρ)
  | submitted t => some t
  | _ => none

/-- The result that is offered, with its bear. -/
def offer? : Deed w ρ → Option (Bear w × ρ)
  | offered b r => some (b, r)
  | _ => none

end Deed

/-- What an event says about a bear, when what is offered comes from `last`. -/
def Event.deed? (last : Option (Bear w)) : Event w ρ → Option (Deed w ρ)
  | .asked b deliveries => some (.asked b deliveries)
  | .submitted t => some (.submitted t)
  | .offered r => last.map (.offered · r)
  | .noticed _ => none

def Event.offered? : Event w ρ → Option ρ
  | .offered r => some r
  | _ => none

/-- Whether an event is between the session and its sink: an offer, or a notice on the answer. -/
def Event.isOfSink : Event w ρ → Bool
  | .offered _ => true
  | .noticed n => n.isOfSink
  | _ => false

namespace History

/-- Who was asked and what was submitted, in order. -/
def deeds (h : List (Event w ρ)) : List (Deed w ρ) := h.filterMap (Event.deed? none)

/-- The results that were offered, in order. -/
def offered (h : List (Event w ρ)) : List ρ := h.filterMap Event.offered?

/-- The events between the session and its sink, in order. -/
def ofSink (h : List (Event w ρ)) : List (Event w ρ) := h.filter Event.isOfSink

theorem ofSink_append (h more : List (Event w ρ)) : ofSink (h ++ more) = ofSink h ++ ofSink more :=
  List.filter_append ..

theorem ofSink_submissions (ts : List (Ticket w ρ)) : ofSink (ts.map Event.submitted) = [] :=
  List.filter_eq_nil_iff.2 fun e mem => by
    obtain ⟨t, _, rfl⟩ := List.mem_map.1 mem
    exact Bool.false_ne_true

theorem ofSink_notices {ns : List (Notice w)} (own : ∀ n ∈ ns, n.isOfSink = false) :
    ofSink (ns.map (Event.noticed : Notice w → Event w ρ)) = [] :=
  List.filter_eq_nil_iff.2 fun e mem => by
    obtain ⟨n, found, rfl⟩ := List.mem_map.1 mem
    exact Bool.eq_false_iff.1 (own n found)

theorem offered_eq_ofSink (h : List (Event w ρ)) :
    offered h = (ofSink h).filterMap Event.offered? := by
  unfold offered ofSink
  rw [List.filterMap_filter]
  refine List.filterMap_congr fun e _ => ?_
  cases e with
  | noticed n => exact (ite_self none).symm
  | _ => rfl

theorem deeds_append (h more : List (Event w ρ)) : deeds (h ++ more) = deeds h ++ deeds more :=
  List.filterMap_append

theorem deeds_notices (ns : List (Notice w)) :
    deeds (ns.map (Event.noticed : Notice w → Event w ρ)) = [] :=
  List.filterMap_eq_nil_iff.2 fun e mem => by
    obtain ⟨n, _, rfl⟩ := List.mem_map.1 mem
    rfl

/-- Without offers it does not matter which task has ended last. -/
theorem filterMap_deed? {h : List (Event w ρ)} (silent : offered h = []) (last : Option (Bear w)) :
    h.filterMap (Event.deed? last) = deeds h := by
  refine List.filterMap_congr fun e mem => ?_
  cases e with
  | offered r => exact absurd (List.filterMap_eq_nil_iff.1 silent _ mem) (Option.some_ne_none r)
  | _ => rfl

theorem submitted_eq_deeds (h : List (Event w ρ)) :
    submitted h = (deeds h).filterMap Deed.submitted? := by
  rw [deeds, List.filterMap_filterMap]
  refine List.filterMap_congr fun e _ => ?_
  cases e <;> rfl

theorem filterMap_offer?_deeds (h : List (Event w ρ)) : (deeds h).filterMap Deed.offer? = [] := by
  rw [deeds, List.filterMap_filterMap, List.filterMap_eq_nil_iff]
  intro e _
  cases e <;> rfl

end History

theorem Reception.isOfSink {reception : Reception} {n : Notice w} (mem : n ∈ reception.notices) :
    n.isOfSink = true := by
  cases reception with
  | accepted => cases mem
  | refused fault =>
    rw [List.mem_singleton.1 mem]
    rfl
  | panicked =>
    rw [List.mem_singleton.1 mem]
    rfl

namespace Sink

/-- For those who do not hear the answers there are only the offers. -/
theorem filterMap_transcript {β : Type} {hear : Event w ρ → Option β}
    (deaf : ∀ n : Notice w, n.isOfSink = true → hear (.noticed n) = none) (sink : Sink σ ρ)
    (taken : σ) (results : List ρ) :
    (sink.transcript taken results).filterMap hear =
      results.filterMap fun r => hear (.offered r) := by
  induction results generalizing taken with
  | nil => rfl
  | cons r rest ih =>
    have answers : ((sink.receive taken r).2.notices.map .noticed).filterMap hear = [] :=
      List.filterMap_eq_nil_iff.2 fun e mem => by
        obtain ⟨n, found, rfl⟩ := List.mem_map.1 mem
        exact deaf n (Reception.isOfSink found)
    rw [transcript, List.filterMap_append, ih, List.filterMap_cons, answers, List.filterMap_cons]
    cases hear (.offered r) <;> rfl

/-- What a bear offers are its results, whatever the sink answers. -/
theorem filterMap_deed?_transcript (sink : Sink σ ρ) (taken : σ) (results : List ρ) (b : Bear w) :
    (sink.transcript taken results).filterMap (Event.deed? (some b)) =
      results.map (.offered b) :=
  (sink.filterMap_transcript (fun _ _ => rfl) taken results).trans
    (congrFun List.filterMap_eq_map _)

theorem deeds_transcript (sink : Sink σ ρ) (taken : σ) (results : List ρ) :
    History.deeds (sink.transcript taken results : List (Event w ρ)) = [] :=
  (sink.filterMap_transcript (fun _ _ => rfl) taken results).trans
    (List.filterMap_eq_nil_iff.2 fun _ _ => rfl)

end Sink

namespace Log

/-- What the bears do in a log, when the task that ended last before it was one of `last`. -/
def deedsAfter (last : Option (Bear w)) : List (Moment w ρ) → List (Deed w ρ)
  | [] => []
  | .ended e :: rest => .ended e :: deedsAfter (some e.ticket.bear) rest
  | .event e :: rest => (e.deed? last).toList ++ deedsAfter last rest

/-- What the bears do in a run, in order. -/
def deeds (log : List (Moment w ρ)) : List (Deed w ρ) := deedsAfter none log

/-- What the bears offer to the sink, in order. -/
def offers (log : List (Moment w ρ)) : List (Bear w × ρ) := (deeds log).filterMap Deed.offer?

theorem deedsAfter_events (last : Option (Bear w)) (events : List (Event w ρ)) :
    deedsAfter last (events.map .event) = events.filterMap (Event.deed? last) := by
  induction events with
  | nil => rfl
  | cons e rest ih =>
    show (e.deed? last).toList ++ deedsAfter last (rest.map .event) = _
    rw [ih, List.filterMap_cons]
    cases e.deed? last <;> rfl

theorem deeds_events (events : List (Event w ρ)) :
    deeds (events.map .event) = History.deeds events := deedsAfter_events none events

theorem deedsAfter_append_ended (last : Option (Bear w)) (log rest : List (Moment w ρ))
    (e : Ending w ρ) :
    deedsAfter last (log ++ .ended e :: rest) =
      deedsAfter last log ++ .ended e :: deedsAfter (some e.ticket.bear) rest := by
  induction log generalizing last with
  | nil => rfl
  | cons m log ih =>
    cases m with
    | ended e' => exact congrArg (.ended e' :: ·) (ih _)
    | event event =>
      show (event.deed? last).toList ++ deedsAfter last (log ++ .ended e :: rest) = _
      rw [ih, ← List.append_assoc]
      rfl

theorem deeds_ended (log : List (Moment w ρ)) (e : Ending w ρ) (events : List (Event w ρ)) :
    deeds (log ++ .ended e :: events.map .event) =
      deeds log ++ .ended e :: events.filterMap (Event.deed? (some e.ticket.bear)) := by
  rw [deeds, deedsAfter_append_ended, deedsAfter_events, deeds]

end Log

theorem map_snd_filter_fst (a b : Bear w) (results : List ρ) :
    ((results.map (a, ·)).filter (·.1 = b)).map Prod.snd = if a = b then results else [] := by
  split
  · rename_i same
    have all : (results.map (a, ·)).filter (·.1 = b) = results.map (a, ·) :=
      List.filter_eq_self.2 fun p mem => by
        obtain ⟨_, _, rfl⟩ := List.mem_map.1 mem
        exact decide_eq_true same
    rw [all, List.map_map]
    exact List.map_id _
  · rename_i other
    have none : (results.map (a, ·)).filter (·.1 = b) = [] :=
      List.filter_eq_nil_iff.2 fun p mem => by
        obtain ⟨_, _, rfl⟩ := List.mem_map.1 mem
        exact fun same => other (of_decide_eq_true same)
    rw [none]
    rfl

/-- What one bear has brought, among what all have brought with their bears. -/
theorem map_snd_filter_flatMap (done : List (Ending w ρ)) (b : Bear w) :
    ((done.flatMap fun e => (e.outcome.toOption.getD []).map (e.ticket.bear, ·)).filter
        (·.1 = b)).map Prod.snd =
      (done.filter (·.ticket.bear = b)).flatMap fun e => e.outcome.toOption.getD [] := by
  induction done with
  | nil => rfl
  | cons e rest ih =>
    rw [List.flatMap_cons, List.filter_append, List.map_append, ih, map_snd_filter_fst]
    split
    · rename_i mine
      rw [List.filter_cons_of_pos (by simpa using mine)]
      rfl
    · rename_i other
      rw [List.filter_cons_of_neg (by simpa using other)]
      rfl

namespace Session

/-! ## The sink hears nothing before a task has ended -/

theorem isOfSink_answer (s : Session w ρ) (b : Bear w) : (s.answer b).isOfSink = false := by
  unfold answer
  split <;> rfl

theorem ofSink_ask (s : Session w ρ) (b : Bear w) :
    History.ofSink (s.ask b).1.history = History.ofSink s.history := by
  by_cases h : b ∈ s.scheduled
  · rw [ask, if_pos h]
    exact (History.ofSink_append ..).trans (List.append_nil _)
  · have silent : History.ofSink (s.interview b) = [] := by
      have own : (Event.noticed (s.answer b) : Event w ρ).isOfSink = false := s.isOfSink_answer b
      unfold interview History.ofSink
      rw [List.filter_cons_of_neg Bool.false_ne_true,
        List.filter_cons_of_neg (Bool.eq_false_iff.1 own)]
      exact History.ofSink_submissions (s.tickets b)
    rw [ask_of_new h]
    refine (History.ofSink_append ..).trans ?_
    rw [silent, List.append_nil]

theorem ofSink_askAll (s : Session w ρ) (bs : List (Bear w)) :
    History.ofSink (s.askAll bs).1.history = History.ofSink s.history := by
  induction bs generalizing s with
  | nil => rfl
  | cons b rest ih => exact (ih _).trans (s.ofSink_ask b)

theorem ofSink_release (s : Session w ρ) (b : Bear w) :
    History.ofSink (s.release b).history = History.ofSink s.history := by
  obtain ⟨ns, own, grown⟩ := s.history_release_eq b
  rw [grown, History.ofSink_append, History.ofSink_notices own, List.append_nil]

theorem ofSink_settle (s : Session w ρ) (done : List (Bear w)) :
    History.ofSink (s.settle done).history = History.ofSink s.history := by
  refine settle_induction
    (P := fun s' _ => History.ofSink s'.history = History.ofSink s.history) ?_ ?_ rfl
  · exact fun _ _ _ _ h => h
  · exact fun s' b _ _ h => ((ofSink_askAll _ _).trans (s'.ofSink_release b)).trans h

theorem ofSink_absorb (s : Session w ρ) (t : Ticket w ρ) (outcome : Outcome ρ) :
    History.ofSink (s.absorb t outcome).history = History.ofSink s.history := by
  obtain ⟨ns, own, grown⟩ := s.history_absorb_eq t outcome
  rw [grown, History.ofSink_append, History.ofSink_notices own, List.append_nil]

theorem ofSink_finish (s : Session w ρ) (t : Ticket w ρ) (outcome : Outcome ρ) :
    History.ofSink (s.finish t outcome).history = History.ofSink s.history :=
  (ofSink_settle ((s.absorb t outcome).retire t) [t.bear]).trans (s.ofSink_absorb t outcome)

theorem ofSink_since_finish (s : Session w ρ) (t : Ticket w ρ) (outcome : Outcome ρ) :
    History.ofSink ((s.finish t outcome).since s) = [] := by
  have same := s.ofSink_finish t outcome
  rw [← history_append_since (s.history_finish t outcome), History.ofSink_append,
    List.append_right_eq_self] at same
  exact same

theorem offered_since_finish (s : Session w ρ) (t : Ticket w ρ) (outcome : Outcome ρ) :
    History.offered ((s.finish t outcome).since s) = [] := by
  rw [History.offered_eq_ofSink, ofSink_since_finish]
  rfl

/-! ## Only asking is a deed until a task has ended -/

theorem deeds_interview (s : Session w ρ) (b : Bear w) :
    History.deeds (s.interview b) =
      .asked b (s.delivered b) :: (s.tickets b).map .submitted := by
  show Deed.asked b (s.delivered b) :: History.deeds ((s.tickets b).map .submitted) = _
  refine congrArg _ ?_
  unfold History.deeds
  rw [List.filterMap_map]
  exact congrFun List.filterMap_eq_map _

theorem bear_of_mem_deeds_interview {s : Session w ρ} {b : Bear w} {d : Deed w ρ}
    (mem : d ∈ History.deeds (s.interview b)) : d.bear = b := by
  rw [deeds_interview] at mem
  rcases List.mem_cons.1 mem with rfl | mem
  · rfl
  · obtain ⟨t, mine, rfl⟩ := List.mem_map.1 mem
    exact bear_of_mem_tickets mine

theorem deeds_release (s : Session w ρ) (b : Bear w) :
    History.deeds (s.release b).history = History.deeds s.history := by
  obtain ⟨ns, _, grown⟩ := s.history_release_eq b
  rw [grown, History.deeds_append, History.deeds_notices, List.append_nil]

theorem deeds_absorb (s : Session w ρ) (t : Ticket w ρ) (outcome : Outcome ρ) :
    History.deeds (s.absorb t outcome).history = History.deeds s.history := by
  obtain ⟨ns, _, grown⟩ := s.history_absorb_eq t outcome
  rw [grown, History.deeds_append, History.deeds_notices, List.append_nil]

theorem deeds_offers (sink : Sink σ ρ) (results : List ρ) (state : Session w ρ × σ) :
    History.deeds (results.foldl (offer sink) state).1.history =
      History.deeds state.1.history := by
  rw [foldl_offer_eq]
  refine (History.deeds_append ..).trans ?_
  rw [sink.deeds_transcript, List.append_nil]

/-! ## What follows from the end of a task -/

theorem since_complete (sink : Sink σ ρ) (now : Session w ρ × σ) (t : Ticket w ρ)
    (outcome : Outcome ρ) :
    (complete sink now t outcome).1.since now.1 =
      (now.1.finish t outcome).since now.1 ++
        sink.transcript now.2 (outcome.toOption.getD []) := by
  have whole := history_append_since (history_complete sink now t outcome)
  rw [← List.append_cancel_left_eq now.1.history, whole, ← List.append_assoc,
    history_append_since (now.1.history_finish t outcome), complete_eq]

/-- After the end of a task come the deeds that it has set free, and then its bear offers the
results. -/
theorem deeds_complete (sink : Sink σ ρ) (now : Session w ρ × σ) (t : Ticket w ρ)
    (outcome : Outcome ρ) :
    ((complete sink now t outcome).1.since now.1).filterMap (Event.deed? (some t.bear)) =
      History.deeds ((now.1.finish t outcome).since now.1) ++
        (outcome.toOption.getD []).map (.offered t.bear) := by
  rw [since_complete, List.filterMap_append, sink.filterMap_deed?_transcript,
    History.filterMap_deed? (now.1.offered_since_finish t outcome)]

variable {sink : Sink σ ρ} {s : Session w ρ} {taken : σ} {log : List (Moment w ρ)}
  {now : Session w ρ × σ}

/-- What is offered in a run is what its endings have brought, each result with its bear. -/
theorem Run.offers_eq (run : Run sink s taken log now) :
    Log.offers log = (Log.endings log).flatMap fun e =>
      (e.outcome.toOption.getD []).map (e.ticket.bear, ·) := by
  induction run with
  | launched =>
    rw [Log.offers, Log.deeds_events, History.filterMap_offer?_deeds, Log.endings_events]
    rfl
  | @ended log now t run flying outcome ih =>
    have offers : ((outcome.toOption.getD []).map (Deed.offered t.bear)).filterMap Deed.offer? =
        (outcome.toOption.getD []).map (t.bear, ·) := by
      rw [List.filterMap_map]
      exact congrFun List.filterMap_eq_map _
    rw [Log.offers, Log.deeds_ended, deeds_complete, List.filterMap_append, endings_ended,
      List.flatMap_append, ← ih, List.filterMap_cons, List.filterMap_append,
      History.filterMap_offer?_deeds, offers]
    simp [Deed.offer?, Log.offers]

/-- What one bear offers is what its tasks have brought. -/
theorem Run.offers_of_bear (run : Run sink s taken log now) (b : Bear w) :
    ((Log.offers log).filter (·.1 = b)).map Prod.snd =
      ((Log.endings log).filter (·.ticket.bear = b)).flatMap fun e =>
        e.outcome.toOption.getD [] := by
  rw [run.offers_eq]
  exact map_snd_filter_flatMap (Log.endings log) b

end Session

end AnalysisScheduler
