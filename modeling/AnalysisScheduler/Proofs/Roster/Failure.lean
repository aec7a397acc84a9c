import AnalysisScheduler.Proofs.Roster.Assembly
import AnalysisScheduler.Run.Run

/-!
# Why rosters cannot be assembled

Whether a roster can be assembled is a matter of the kinds that the sites need: none of them may
depend on itself, and those that were not supplied have to find their options
(`assemble_eq_ok_iff`). The error tells which of the two went wrong and where
(`explains_of_assemble`). A run whose roster fails ends with that error before anything was
submitted or offered (`assemble_fails_without_effect`).
-/

namespace AnalysisScheduler

variable {w : Workspace}

namespace Roster

/-- What an error tells about a site that starts with `bears`: a kind that the site needs and lacks
finds no options, or some bears of the site depend on each other in a cycle. These bears were there
or have been made. -/
def Explains (site : Site w) (bears : List (Bear w)) (said : List (Notice w)) :
    SetupError (Bear w) → Prop
  | .setting error => ∃ k, Reached (bears.map Bear.kindId) k ∧ k ∉ bears.map Bear.kindId ∧
      w.optionsOf k site = .error error
  | .circular c =>
      IsSimpleCycle (fun a b : Bear w => w.Declares a.kindId b.kindId) c.cycle ∧
        ∀ b ∈ c.cycle, b.site = site ∧ Reached (bears.map Bear.kindId) b.kindId ∧
          (b ∈ bears ∨ b ∈ madeIn said)
  | .startup _ | .nested => False

theorem Explains.mono {site : Site w} {bears : List (Bear w)} {said said' : List (Notice w)}
    {e : SetupError (Bear w)} (explains : Explains site bears said e)
    (more : ∀ b ∈ madeIn said, b ∈ madeIn said') : Explains site bears said' e := by
  cases e with
  | setting error => exact explains
  | circular c =>
    obtain ⟨simple, met⟩ := explains
    refine ⟨simple, fun b mem => ?_⟩
    obtain ⟨here, reached, there⟩ := met b mem
    exact ⟨here, reached, there.imp_right (more b)⟩
  | startup cause => exact explains
  | nested => exact explains

theorem explains_of_addGroup {r : Roster w} {nextId : Nat} {group : Group w} {d : Draft w}
    {site : Site w} {e : SetupError (Bear w)} (isAt : Group.IsAt site group)
    (failed : r.addGroup nextId group = (d, .error e)) :
    Explains site group.values d.notices e := by
  have starts : group.values.map Bear.kindId = group.keys :=
    OrderedMap.map_values fun k b found => (isAt k b found).1
  rcases addGroup_eq_error isAt failed with
    ⟨k, error, rfl, reached, lacks, same⟩ | ⟨bears, rfl, simple, met⟩
  · exact ⟨k, starts ▸ reached, starts ▸ lacks, same⟩
  · obtain ⟨made, grows⟩ := r.grows_addGroup nextId isAt
    rw [failed] at grows
    refine ⟨simple, fun b mem => ?_⟩
    obtain ⟨there, reached⟩ := met b mem
    refine ⟨((grows.isAt isAt).of_mem_values there).2, starts ▸ reached, ?_⟩
    rw [grows.values] at there
    rw [grows.told]
    exact (List.mem_append.1 there).imp_right (List.mem_append_right _)

/-! ## Groups one after another -/

theorem addGroups_eq_ok_iff (r : Roster w) (nextId : Nat) {entries : List (Site w × Group w)}
    (isAt : ∀ e ∈ entries, Group.IsAt e.1 e.2) :
    (∃ r', (r.addGroups nextId (entries.map Prod.snd)).2 = .ok r') ↔
      ∀ e ∈ entries, Completable e.1 e.2.keys := by
  induction entries generalizing r nextId with
  | nil => exact iff_of_true ⟨r, rfl⟩ fun _ mem => absurd mem List.not_mem_nil
  | cons e rest ih =>
    have later (r : Roster w) (nextId : Nat) :=
      ih r nextId fun e' mem => isAt e' (List.mem_cons_of_mem _ mem)
    rw [List.forall_mem_cons, ← addGroup_eq_ok_iff r nextId (isAt e List.mem_cons_self),
      List.map_cons, addGroups]
    cases r.addGroup nextId e.2 with
    | mk d outcome =>
      cases outcome with
      | error error => simp
      | ok r₁ => exact (later r₁ d.nextId).trans (and_iff_right ⟨d, r₁, rfl⟩).symm

theorem explains_of_addGroups {r : Roster w} {nextId : Nat} {entries : List (Site w × Group w)}
    {said : List (Notice w)} {e : SetupError (Bear w)} (isAt : ∀ e ∈ entries, Group.IsAt e.1 e.2)
    (failed : r.addGroups nextId (entries.map Prod.snd) = (said, .error e)) :
    ∃ entry ∈ entries, Explains entry.1 entry.2.values said e := by
  induction entries generalizing r nextId said with
  | nil => cases failed
  | cons entry rest ih =>
    simp only [List.map_cons, addGroups] at failed
    split at failed
    · rename_i d error refused
      cases failed
      exact ⟨entry, List.mem_cons_self,
        explains_of_addGroup (isAt entry List.mem_cons_self) refused⟩
    · rename_i d r₁ added
      obtain ⟨rfl, refused⟩ := Prod.mk.inj failed
      obtain ⟨later, mem, explains⟩ := ih (fun e' mem => isAt e' (List.mem_cons_of_mem _ mem))
        (Prod.ext rfl refused)
      refine ⟨later, List.mem_cons_of_mem _ mem, explains.mono fun b told => ?_⟩
      rw [madeIn_append]
      exact List.mem_append_right _ told

/-! ## Whole rosters -/

variable {nextId : Nat} {supplied : List (Bear w)} {said : List (Notice w)}
  {e : SetupError (Bear w)}

theorem assemble_eq_ok_iff :
    (∃ r, (assemble nextId supplied).2 = .ok r) ↔
      ∀ site ∈ sites supplied, Completable site ((kept supplied site).map Bear.kindId) := by
  refine (addGroups_eq_ok_iff .empty nextId fun _ => isAt_of_mem_enlistAll).trans ?_
  rw [← keys_enlistAll, OrderedMap.keys, List.forall_mem_map]
  refine forall₂_congr fun entry mem => ?_
  rw [keys_of_enlistAll (OrderedMap.get?_eq_some_iff.2 mem)]

theorem explains_of_assemble (failed : assemble nextId supplied = (said, .error e)) :
    ∃ site ∈ sites supplied, Explains site (kept supplied site) said e := by
  obtain ⟨rfl, refused⟩ := Prod.mk.inj failed
  obtain ⟨entry, mem, explains⟩ :=
    explains_of_addGroups (fun _ => isAt_of_mem_enlistAll) (Prod.ext rfl refused)
  rw [values_of_enlistAll (OrderedMap.get?_eq_some_iff.2 mem)] at explains
  refine ⟨entry.1, keys_enlistAll supplied ▸ List.mem_map_of_mem mem,
    explains.mono fun b told => ?_⟩
  rw [madeIn_append]
  exact List.mem_append_right _ told

end Roster

/-! ## Runs that do not start -/

/-- Whatever is supplied, the roster can be assembled if and only if at every site no kind that it
needs depends on itself, and each kind that it needs and that was not supplied finds its options.
Otherwise the error is the reason at one of the sites. A run outside another one then ends with this
error: nothing was submitted or offered to the sink, and the executor is shut down. -/
theorem assemble_fails_without_effect {ρ σ : Type} (env : Environment w ρ σ) (nextId : Nat)
    (supplied : List (Bear w)) (taken : σ) :
    ((∃ r, (Roster.assemble nextId supplied).2 = .ok r) ↔
        ∀ site ∈ Roster.sites supplied,
          (∀ k, Roster.Needs supplied site k → ¬ Relation.TransGen w.Declares k k) ∧
          ∀ k, Roster.Needs supplied site k → (∀ b ∈ supplied, b.site = site → b.kindId ≠ k) →
            ∃ options, w.optionsOf k site = .ok options) ∧
      ∀ said e, Roster.assemble nextId supplied = (said, .error e) →
        (∃ site ∈ Roster.sites supplied,
          Roster.Explains site (Roster.kept supplied site) said e) ∧
        (env.isNested = false →
          run env nextId supplied taken =
            { outcome := .error e
              history := said.map .noticed
              taken := taken
              executor := env.executor.shutdown
              submissions := 0
              shutdowns := 1 }) := by
  refine ⟨?_, fun said e failed => ⟨Roster.explains_of_assemble failed, fun outside => ?_⟩⟩
  · rw [Roster.assemble_eq_ok_iff]
    refine forall₂_congr fun site _ => and_congr_right fun _ => forall₂_congr fun k _ => ?_
    rw [Roster.mem_map_kindId_kept]
    simp only [not_exists, not_and, ne_eq]
  · unfold run Session.start
    rw [outside, failed]
    rfl

/-! ## A cycle of two kinds -/

namespace Loop

/-- The second kind and the third need each other, and the first one needs them. -/
def workspace : Workspace where
  kindCount := 3
  kinds := #v[⟨"Plan", .corpus, [⟨1, by decide⟩], .empty⟩,
    ⟨"Check", .corpus, [⟨2, by decide⟩], .empty⟩,
    ⟨"Review", .delivery, [⟨1, by decide⟩], .empty⟩]
  sections := #[.new "all"]
  corpora := #[.ofList []]

def plan : Bear workspace :=
  ⟨0, ⟨0, by decide⟩, ⟨⟨0, by decide⟩, ⟨0, by decide⟩⟩, by decide +kernel⟩

/-- The sink counts what it is offered. -/
def env : Environment workspace Nat Nat where
  analyses _ := ⟨fun _ _ => .done [1], fun _ _ _ => .panicked, fun _ r _ => .done [r]⟩
  executor := .pool true
  sink := ⟨fun count _ => (count + 1, .accepted)⟩

theorem refused : ∃ said c, Roster.assemble 1 [plan] = (said, .error (.circular c)) ∧
    c.cycle.map Bear.id = [1, 2, 1] := by
  have ids : (match (Roster.assemble 1 [plan]).2 with
      | .error (.circular c) => c.cycle.map Bear.id
      | _ => []) = [1, 2, 1] := by decide +kernel
  cases h : Roster.assemble 1 [plan] with
  | mk said result =>
    rw [h] at ids
    cases result with
    | ok r => cases ids
    | error e =>
      cases e with
      | circular c => exact ⟨said, c, rfl, ids⟩
      | _ => cases ids

end Loop

theorem assemble_fails_without_effect_of_loop :
    ∃ said c, Roster.assemble 1 [Loop.plan] = (said, .error (.circular c)) ∧
      c.cycle.map Bear.id = [1, 2, 1] ∧
      (∃ site ∈ Roster.sites [Loop.plan],
        Roster.Explains site (Roster.kept [Loop.plan] site) said (.circular c)) ∧
      run Loop.env 1 [Loop.plan] 0 =
        { outcome := .error (.circular c)
          history := said.map .noticed
          taken := 0
          executor := .pool false
          submissions := 0
          shutdowns := 1 } := by
  obtain ⟨said, c, failed, ids⟩ := Loop.refused
  obtain ⟨explained, without⟩ :=
    (assemble_fails_without_effect Loop.env 1 [Loop.plan] 0).2 said _ failed
  exact ⟨said, c, failed, ids, explained, without rfl⟩

end AnalysisScheduler
