import AnalysisScheduler.Proofs.Run.Order
import AnalysisScheduler.Proofs.Run.Shadow

/-!
# Sites do not disturb each other

All sites share one graph, one queue of tasks and one sink. Still each site runs as if it were
alone: take any run of a session, with tasks ending in any order and in any way, and erase what the
bears of the other sites do. What is left is a run of the session that is started with the supplied
bears of the site only (`site_runs_alone`); just the numbers of made bears and of tasks are others.

The run of the site is built along the given one. When a task of the site ends, it ends in both
sessions; when a task ends elsewhere, the session of the site does not move
(`Session.Run.mirrored`).
-/

namespace AnalysisScheduler

variable {w : Workspace} {ρ σ σ' : Type}

namespace Session

variable {v : View w} {r r' : Roster w} {supplied supplied' : List (Bear w)}
  {said said' : List (Notice w)}

/-- What the deeds of a step are seen to be is what the step does on the other side. -/
theorem Shadow.since {s s' s₁ s₁' : Session w ρ} (before : Shadow v r s s')
    (after : Shadow v r s₁ s₁') (grown : s.history <+: s₁.history)
    (grown' : s'.history <+: s₁'.history) :
    History.deeds (s₁'.since s') = v.see (History.deeds (s₁.since s)) := by
  have deeds := after.deeds
  rw [← history_append_since grown, ← history_append_since grown', History.deeds_append,
    History.deeds_append, View.see_append, before.deeds] at deeds
  exact List.append_cancel_left deeds

/-- A session and that of the site are launched side by side. -/
theorem Mirrors.launch (sound : r.Sound) (sound' : r'.Sound) (part : r.IsPart v.site v.ren r')
    (debug : ∀ n ∈ said, n.level = .debug) (debug' : ∀ n ∈ said', n.level = .debug)
    (numbers : v.Numbers (Session.ofRoster supplied r said : Session w ρ).launch.history) :
    Mirrors v r r' [] [] [] (Session.ofRoster supplied r said : Session w ρ).launch
      (Session.ofRoster supplied' r' said').launch := by
  have entries : v.see r.entryPoints = r'.entryPoints := part.entryPoints.symm
  have start : Mirrors v r r' [] [] r.entryPoints
      (Session.ofRoster supplied r said : Session w ρ) (Session.ofRoster supplied' r' said') := {
    sound := sound
    sound' := sound'
    part := part
    inv := .ofRoster sound debug
    inv' := by
      rw [entries]
      exact .ofRoster sound' debug'
    shadow := {
      graph := part.graph
      inFlight := rfl
      deeds := (History.deeds_notices _).trans
        (congrArg v.see (History.deeds_notices _)).symm } }
  have earlier := numbers.of_prefix (history_settle _ _)
  have asked := start.askAll earlier
  obtain ⟨idle, _⟩ := start.shadow_askAll earlier
  rw [List.append_nil] at asked
  have settled := asked.settle numbers
  rw [← idle, entries] at settled
  exact settled

/-- For a run of a session there is one of the session of the site that does what is seen of it. -/
theorem Run.mirrored (sound : r.Sound) (sound' : r'.Sound) (part : r.IsPart v.site v.ren r')
    (debug : ∀ n ∈ said, n.level = .debug) (debug' : ∀ n ∈ said', n.level = .debug)
    {sink : Sink σ ρ} {taken : σ} {log : List (Moment w ρ)} {now : Session w ρ × σ}
    (run : Run sink (.ofRoster supplied r said) taken log now)
    (numbers : v.Numbers now.1.history) (sink' : Sink σ' ρ) (taken' : σ') :
    ∃ log' now', Run sink' (.ofRoster supplied' r' said') taken' log' now' ∧
      Mirrors v r r' (Log.endings log) [] [] now.1 now'.1 ∧
      Log.deeds log' = v.see (Log.deeds log) := by
  induction run with
  | launched =>
    have launch : Mirrors v r r' [] [] [] (Session.ofRoster supplied r said : Session w ρ).launch
        (Session.ofRoster supplied' r' said').launch :=
      .launch sound sound' part debug debug' numbers
    refine ⟨_, _, .launched, ?_, ?_⟩
    · rw [Log.endings_events]
      exact launch
    · rw [Log.deeds_events, Log.deeds_events]
      exact launch.shadow.deeds
  | @ended log now t run flying outcome ih =>
    have finished := numbers.of_prefix
      (history_offers sink (outcome.toOption.getD []) (now.1.finish t outcome, now.2))
    obtain ⟨log', now', run', m, deeds⟩ := ih
      (numbers.of_prefix (history_complete sink now t outcome))
    by_cases here : t.bear.site = v.site
    · -- The task ends on both sides.
      have flying' : t.rename v.ren v.number ∈ now'.1.inFlight :=
        m.shadow.inFlight ▸ View.mem_see_iff.2 ⟨t, flying, here, rfl⟩
      have after := m.finish_here flying here outcome finished
      refine ⟨_, _, .ended run' flying' outcome, ?_, ?_⟩
      · rw [endings_ended]
        exact after.offers sink _ (now.1.finish t outcome, now.2) sink' _
          (now'.1.finish (t.rename v.ren v.number) outcome, now'.2)
      · have since := m.shadow.since after.shadow (now.1.history_finish t outcome)
          (now'.1.history_finish (t.rename v.ren v.number) outcome)
        have offers : v.see ((outcome.toOption.getD []).map (Deed.offered t.bear)) =
            (outcome.toOption.getD []).map (.offered (v.ren t.bear)) := by
          rw [View.see_eq_map fun d mem => ?_, List.map_map]
          · rfl
          · obtain ⟨_, _, rfl⟩ := List.mem_map.1 mem
            exact here
        rw [Log.deeds_ended, Log.deeds_ended, deeds_complete, deeds_complete, View.see_append,
          View.see_cons_here (a := Deed.ended ⟨t, outcome⟩) here, View.see_append, offers, ← since,
          deeds]
        rfl
    · -- The other side does not move.
      have after := m.finish_elsewhere flying here outcome finished
      refine ⟨log', now', run', ?_, ?_⟩
      · rw [endings_ended]
        exact after.offers sink _ (now.1.finish t outcome, now.2) sink' [] now'
      · have since := m.shadow.since after.shadow (now.1.history_finish t outcome)
          (List.prefix_refl _)
        have still : now'.1.since now'.1 = [] := List.drop_length
        rw [still] at since
        have offers : v.see ((outcome.toOption.getD []).map (Deed.offered t.bear)) = [] := by
          refine View.see_eq_nil fun d mem => ?_
          obtain ⟨_, _, rfl⟩ := List.mem_map.1 mem
          exact here
        rw [Log.deeds_ended, deeds_complete, View.see_append,
          View.see_cons_elsewhere (a := Deed.ended ⟨t, outcome⟩) here, View.see_append, offers,
          ← since, deeds]
        exact (List.append_nil _).symm

end Session

/-- Of a run of a session, what the bears of one site do is a run of the session that is started
with the supplied bears of the site, in the same order, and with any numbers for the bears that have
to be made. Bears and tasks have other names there: supplied bears keep theirs, every bear keeps its
kind and its site, and no two bears and no two tasks of the site get the same name. The bears of the
site are asked in the same order, with the same deliveries, submit the same tasks, which end as they
did, and offer the same results to the sink, whatever happens at the other sites. -/
theorem site_runs_alone {nextId : Nat} {supplied : List (Bear w)} {s : Session w ρ}
    (built : (Session.start nextId supplied).2 = .ok s) (site : Site w) (nextId' : Nat) :
    ∃ (s' : Session w ρ) (ren : Bear w → Bear w),
      (Session.start nextId' (supplied.filter (·.site = site))).2 = .ok s' ∧
      s'.roster.bears = (s.roster.bears.filter (·.site = site)).map ren ∧
      (∀ b, (ren b).kindId = b.kindId ∧ (ren b).site = b.site) ∧
      (∀ b ∈ s.roster.bears, b.site = site →
        (b ∈ supplied → ren b = b) ∧
          ∀ b' ∈ s.roster.bears, b'.site = site → ren b = ren b' → b = b') ∧
      ∀ {σ σ' : Type} {sink : Sink σ ρ} {taken : σ} {log : List (Moment w ρ)}
        {now : Session w ρ × σ}, Session.Run sink s taken log now →
        ∀ (sink' : Sink σ' ρ) (taken' : σ'),
          ∃ (number : Nat → Nat) (log' : List (Moment w ρ)) (now' : Session w ρ × σ'),
            Session.Run sink' s' taken' log' now' ∧
            (∀ t ∈ History.submitted (Log.history log), t.bear.site = site →
              ∀ t' ∈ History.submitted (Log.history log), t'.bear.site = site →
                number t.id = number t'.id → t = t') ∧
            Log.deeds log' =
              ((Log.deeds log).filter (·.bear.site = site)).map (.rename ren number) ∧
            now'.1.inFlight =
              (now.1.inFlight.filter (·.bear.site = site)).map (.rename ren number) ∧
            (Log.offers log').map Prod.snd =
              ((Log.offers log).filter (·.1.site = site)).map Prod.snd := by
  obtain ⟨r, said, rfl, assembled⟩ := Session.exists_assemble_of_start built
  obtain ⟨said', r', assembled'⟩ := Roster.exists_assemble_filter nextId' assembled site
  have part := Roster.isPart_of_assemble assembled assembled'
  have debug := Roster.level_of_assemble nextId supplied
  have debug' := Roster.level_of_assemble nextId' (supplied.filter (·.site = site))
  rw [assembled] at debug
  rw [assembled'] at debug'
  have built' : (Session.start nextId' (supplied.filter (·.site = site))).2 =
      .ok (.ofRoster (supplied.filter (·.site = site)) r' said' : Session w ρ) := by
    unfold Session.start
    rw [assembled']
  refine ⟨_, r'.counterpart, built', part.bears, fun b => ⟨part.sameKind b, part.sameSite b⟩,
    fun b here same => ⟨fun old => ?_, fun b' there same' => ?_⟩, ?_⟩
  · exact Roster.counterpart_of_supplied assembled assembled' here old same
  · exact part.graph.injective b (List.mem_filter.2 ⟨here, decide_eq_true same⟩) b'
      (List.mem_filter.2 ⟨there, decide_eq_true same'⟩)
  · intro σ σ' sink taken log now run sink' taken'
    have submitted : ((History.submitted now.1.history).map Ticket.id).Nodup :=
      (run.invariant built).books.ids ▸ List.nodup_range
    -- The numbers are read off the end of the run, and serve all its states.
    obtain ⟨number, numbers⟩ := View.exists_numbers site r'.counterpart submitted
    obtain ⟨log', now', run', m, deeds⟩ := Session.Run.mirrored
      (Roster.sound_of_assemble (congrArg Prod.snd assembled))
      (Roster.sound_of_assemble (congrArg Prod.snd assembled')) part debug debug' run numbers
      sink' taken'
    refine ⟨number, log', now', run', ?_, deeds, m.shadow.inFlight, ?_⟩
    · rw [run.history_log]
      exact fun t mem here t' mem' here' same => numbers.injective mem here mem' here' same
    · have offers : Log.offers log' = _ :=
        (congrArg (List.filterMap Deed.offer?) deeds).trans (View.filterMap_offer?_see _ _)
      rw [offers]
      exact List.map_map

/-- At the second site a task fails, and tasks end there in between. -/
theorem site_runs_alone_twins :
    ∃ (s' : Session Twins.workspace Nat) (log' : List (Moment Twins.workspace Nat))
      (now' : Session Twins.workspace Nat × Nat),
      (Session.start 4 (Twins.supplied.filter (·.site = Twins.first))).2 = .ok s' ∧
        Session.Run Twins.sink s' 0 log' now' ∧ now'.1.inFlight = [] ∧
        (Log.offers log').map Prod.snd = [5, 4, 2, 2] := by
  obtain ⟨s', ren, built, _, _, _, runs⟩ := site_runs_alone Twins.started Twins.first 4
  obtain ⟨number, log', now', run, _, _, inFlight, offers⟩ :=
    runs (Twins.run_play [3, 2, 1, 0, 1, 0]).1 Twins.sink 0
  refine ⟨s', log', now', built, run, inFlight.trans ?_, offers.trans ?_⟩
  · have landed : (Twins.play [3, 2, 1, 0, 1, 0]).2.1.inFlight = [] :=
      List.isEmpty_iff.1 (by decide +kernel)
    rw [landed]
    rfl
  · decide +kernel

end AnalysisScheduler
