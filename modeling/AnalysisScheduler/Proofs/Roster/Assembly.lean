import AnalysisScheduler.Proofs.Roster.Completion

/-!
# What a roster is made of

A roster that was assembled lists the bears site by site: first those of the supplied bears that are
kept, then those that were made for what the site still needs, one for each kind. A bear waits on
exactly the bears of its own site whose kinds its own kind declares, and the entry points are the
bears whose kinds declare nothing (`assemble_builds`).
-/

namespace AnalysisScheduler

variable {w : Workspace}

namespace Roster

/-- The kinds of a completed group, in their order: those it starts with, then what the kinds that
are entered depend on. -/
def completedKinds (starts : List (KindId w)) : List (KindId w) :=
  ((walk (kindGraph w) starts).entered.flatMap w.dependenciesOf).foldl appendNew starts

/-- What completing a list of groups adds to a roster, when it says `said` and numbers what it makes
from `nextId`. -/
structure Completes (r r' : Roster w) (nextId : Nat) (entries : List (Site w × Group w))
    (said : List (Notice w)) : Prop where
  bears : r'.bears = r.bears ++ entries.flatMap fun e =>
    e.2.values ++ (madeIn said).filter (·.site = e.1)
  numbered : (madeIn said).map Bear.id = List.range' nextId (madeIn said).length
  here : ∀ b ∈ madeIn said, b.site ∈ entries.map Prod.fst
  kinds : ∀ e ∈ entries,
    (e.2.values ++ (madeIn said).filter (·.site = e.1)).map Bear.kindId = completedKinds e.2.keys

theorem filter_site_eq_self {bears : List (Bear w)} {site : Site w}
    (here : ∀ b ∈ bears, b.site = site) : bears.filter (·.site = site) = bears :=
  List.filter_eq_self.2 fun b mem => decide_eq_true (here b mem)

theorem filter_site_eq_nil {bears : List (Bear w)} {site : Site w}
    (apart : ∀ b ∈ bears, b.site ≠ site) : bears.filter (·.site = site) = [] :=
  List.filter_eq_nil_iff.2 fun b mem here => apart b mem (of_decide_eq_true here)

/-- A completed group adds its bears and those that were made for it. -/
theorem bears_of_addGroup {r r' : Roster w} {nextId : Nat} {group : Group w} {d : Draft w}
    {site : Site w} (isAt : Group.IsAt site group) (ok : r.addGroup nextId group = (d, .ok r')) :
    ∃ made, Draft.Grows site ⟨group, nextId, []⟩ d made ∧
      r'.bears = r.bears ++ (group.values ++ made) ∧
      (group.values ++ made).map Bear.kindId = completedKinds group.keys := by
  obtain ⟨made, grows⟩ := r.grows_addGroup nextId isAt
  rw [ok] at grows
  obtain ⟨_, minted, eq⟩ := addGroup_eq_ok ok
  obtain ⟨isAt', keys⟩ := keys_mintAll minted isAt Walk.grounded_walk
  refine ⟨made, grows, ?_, ?_⟩
  · rw [eq, ← grows.values]
  · rw [← grows.values, OrderedMap.map_values fun k b found => (isAt' k b found).1, keys]
    rfl

theorem completes_addGroups {r r' : Roster w} {nextId : Nat} {entries : List (Site w × Group w)}
    {said : List (Notice w)} (isAt : ∀ e ∈ entries, Group.IsAt e.1 e.2)
    (distinct : (entries.map Prod.fst).Nodup)
    (ok : r.addGroups nextId (entries.map Prod.snd) = (said, .ok r')) :
    Completes r r' nextId entries said := by
  induction entries generalizing r nextId said with
  | nil =>
    cases ok
    exact ⟨(List.append_nil _).symm, rfl, fun _ mem => absurd mem List.not_mem_nil,
      fun _ mem => absurd mem List.not_mem_nil⟩
  | cons e rest ih =>
    rw [List.map_cons, List.nodup_cons] at distinct
    obtain ⟨d, r₁, more, added, completed, rfl⟩ := addGroups_cons_eq_ok ok
    obtain ⟨made, grows, bears, kinds⟩ := bears_of_addGroup (isAt e List.mem_cons_self) added
    have later := ih (fun e' mem => isAt e' (List.mem_cons_of_mem _ mem)) distinct.2 completed
    have told : madeIn (d.notices ++ more) = made ++ madeIn more := by
      rw [madeIn_append, grows.told]
      rfl
    -- What is made for this group is at its site, and what is made later is not.
    have ours : (made ++ madeIn more).filter (·.site = e.1) = made := by
      rw [List.filter_append, filter_site_eq_self grows.here, filter_site_eq_nil,
        List.append_nil]
      exact fun b mem same => distinct.1 (same ▸ later.here b mem)
    have theirs : ∀ e' ∈ rest,
        (made ++ madeIn more).filter (·.site = e'.1) =
          (madeIn more).filter (·.site = e'.1) := by
      intro e' mem
      rw [List.filter_append, filter_site_eq_nil, List.nil_append]
      intro b new same
      exact distinct.1 ((grows.here b new).symm.trans same ▸ List.mem_map_of_mem mem)
    refine { bears := ?_, numbered := ?_, here := ?_, kinds := ?_ }
    · rw [told, later.bears, bears, List.flatMap_cons, ours, List.append_assoc]
      have same := List.flatMap_congr fun e' mem =>
        congrArg (e'.2.values ++ ·) (theirs e' mem)
      rw [same]
    · rw [told, List.map_append, List.length_append, grows.numbered, later.numbered,
        grows.nextId, List.range'_append_1]
    · intro b mem
      rw [told, List.mem_append] at mem
      rcases mem with mem | mem
      · exact grows.here b mem ▸ List.mem_cons_self
      · exact List.mem_cons_of_mem _ (later.here b mem)
    · intro e' mem
      rw [told]
      rcases List.mem_cons.1 mem with rfl | mem
      · rw [ours, kinds]
      · rw [theirs e' mem, later.kinds e' mem]

/-! ## Whole rosters -/

/-- Collecting the supplied bears makes none. -/
theorem madeIn_enlistAll (groups : OrderedMap (Site w) (Group w)) (bears : List (Bear w)) :
    madeIn (enlistAll groups bears).2 = [] := by
  induction bears generalizing groups with
  | nil => rfl
  | cons b rest ih =>
    show madeIn ((enlist groups b).2 ++ (enlistAll (enlist groups b).1 rest).2) = []
    rw [madeIn_append, ih, List.append_nil]
    unfold enlist
    dsimp only
    split
    · split <;> rfl
    · rfl

/-- What is kept at a site and what was made there. -/
def bearsAt (supplied : List (Bear w)) (said : List (Notice w)) (site : Site w) : List (Bear w) :=
  kept supplied site ++ (madeIn said).filter (·.site = site)

variable {nextId : Nat} {supplied : List (Bear w)} {said : List (Notice w)} {r : Roster w}

theorem site_of_mem_bearsAt {site : Site w} {b : Bear w} (mem : b ∈ bearsAt supplied said site) :
    b.site = site := by
  rcases List.mem_append.1 mem with old | new
  · exact (mem_kept old).2
  · exact of_decide_eq_true (List.mem_filter.1 new).2

theorem isAt_of_mem_enlistAll {entry : Site w × Group w}
    (mem : entry ∈ (enlistAll .empty supplied).1.entries) : Group.IsAt entry.1 entry.2 :=
  isAt_enlistAll .empty supplied (fun _ _ found => nomatch found)
    (OrderedMap.get?_eq_some_iff.2 mem)

theorem completes_assemble (built : assemble nextId supplied = (said, .ok r)) :
    Completes .empty r nextId (enlistAll .empty supplied).1.entries said := by
  obtain ⟨rfl, ok⟩ := Prod.mk.inj built
  have completes := completes_addGroups (fun _ => isAt_of_mem_enlistAll)
    (enlistAll .empty supplied).1.distinct (Prod.ext rfl ok)
  have told : madeIn ((enlistAll .empty supplied).2 ++
      (addGroups .empty nextId (enlistAll .empty supplied).1.values).1) =
      madeIn (addGroups .empty nextId (enlistAll .empty supplied).1.values).1 := by
    rw [madeIn_append, madeIn_enlistAll, List.nil_append]
  exact {
    bears := told ▸ completes.bears
    numbered := told ▸ completes.numbered
    here := told ▸ completes.here
    kinds := told ▸ completes.kinds }

theorem bears_of_assemble (built : assemble nextId supplied = (said, .ok r)) :
    r.bears = (sites supplied).flatMap (bearsAt supplied said) := by
  have each : ∀ e ∈ (enlistAll .empty supplied).1.entries,
      e.2.values ++ (madeIn said).filter (·.site = e.1) = bearsAt supplied said e.1 :=
    fun e mem => congrArg (· ++ _) (values_of_enlistAll (OrderedMap.get?_eq_some_iff.2 mem))
  rw [(completes_assemble built).bears, List.flatMap_congr each, ← keys_enlistAll]
  exact (List.nil_append _).trans (List.flatMap_map ..).symm

theorem site_mem_sites (built : assemble nextId supplied = (said, .ok r)) {b : Bear w}
    (made : b ∈ madeIn said) : b.site ∈ sites supplied :=
  keys_enlistAll supplied ▸ (completes_assemble built).here b made

theorem map_kindId_bearsAt (built : assemble nextId supplied = (said, .ok r)) {site : Site w}
    (mem : site ∈ sites supplied) :
    (bearsAt supplied said site).map Bear.kindId =
      completedKinds ((kept supplied site).map Bear.kindId) := by
  rw [← keys_enlistAll] at mem
  obtain ⟨g, found⟩ := OrderedMap.mem_keys_iff.1 mem
  have kinds := (completes_assemble built).kinds (site, g) (OrderedMap.mem_entries_of_get? found)
  rwa [values_of_enlistAll found, keys_of_enlistAll found] at kinds

theorem mem_bears_iff (built : assemble nextId supplied = (said, .ok r)) {b : Bear w} :
    b ∈ r.bears ↔ b.site ∈ sites supplied ∧ b ∈ bearsAt supplied said b.site := by
  rw [bears_of_assemble built, List.mem_flatMap]
  constructor
  · rintro ⟨site, mem, here⟩
    exact site_of_mem_bearsAt here ▸ ⟨mem, here⟩
  · exact fun ⟨mem, here⟩ => ⟨b.site, mem, here⟩

theorem nodup_kinds_bearsAt (built : assemble nextId supplied = (said, .ok r)) {site : Site w}
    (mem : site ∈ sites supplied) : ((bearsAt supplied said site).map Bear.kindId).Nodup := by
  rw [map_kindId_bearsAt built mem]
  refine nodup_foldl_appendNew ?_
  rw [← keys_enlistAll] at mem
  obtain ⟨g, found⟩ := OrderedMap.mem_keys_iff.1 mem
  exact keys_of_enlistAll found ▸ g.nodup_keys

/-- A site has a bear of each kind that it needs, and of no other. -/
theorem needs_iff (built : assemble nextId supplied = (said, .ok r)) {site : Site w}
    (mem : site ∈ sites supplied) {k : KindId w} :
    Needs supplied site k ↔ k ∈ (bearsAt supplied said site).map Bear.kindId := by
  constructor
  · rintro ⟨k₀, start, reach⟩
    induction reach with
    | refl =>
      rw [bearsAt, List.map_append]
      exact List.mem_append_left _ start
    | @tail k k' _ declares ih =>
      obtain ⟨b, here, rfl⟩ := List.mem_map.1 ih
      have site_b : b.site = site := by
        rcases List.mem_append.1 here with old | new
        · exact (mem_kept old).2
        · exact of_decide_eq_true (List.mem_filter.1 new).2
      subst site_b
      have sound := sound_of_assemble (congrArg Prod.snd built)
      obtain ⟨d, there, same, rfl⟩ := sound.provided b ((mem_bears_iff built).2 ⟨mem, here⟩) k'
        (Workspace.mem_dependenciesOf.2 declares)
      exact same ▸ List.mem_map_of_mem ((mem_bears_iff built).1 there).2
  · intro known
    rw [map_kindId_bearsAt built mem, completedKinds, mem_foldl_appendNew, List.mem_flatMap]
      at known
    rcases known with start | ⟨k', entered, needed⟩
    · exact ⟨k, start, .refl⟩
    · obtain ⟨s, start, reach⟩ := reached_of_mem_entered entered
      exact ⟨s, start, reach.tail (Workspace.mem_dependenciesOf.1 needed)⟩

/-- What was made at a site is what it needs beyond the kinds that were supplied, each once. -/
theorem made_iff_needs (built : assemble nextId supplied = (said, .ok r)) {site : Site w}
    (mem : site ∈ sites supplied) :
    (((madeIn said).filter (·.site = site)).map Bear.kindId).Nodup ∧
      ∀ k, (∃ b ∈ madeIn said, b.site = site ∧ b.kindId = k) ↔
        Needs supplied site k ∧ ∀ b ∈ supplied, b.site = site → b.kindId ≠ k := by
  have nodup := nodup_kinds_bearsAt built mem
  rw [bearsAt, List.map_append] at nodup
  obtain ⟨_, once, apart⟩ := List.nodup_append.1 nodup
  refine ⟨once, fun k => ?_⟩
  have made : (∃ b ∈ madeIn said, b.site = site ∧ b.kindId = k) ↔
      k ∈ ((madeIn said).filter (·.site = site)).map Bear.kindId := by
    simp only [List.mem_map, List.mem_filter, decide_eq_true_eq, and_assoc]
  have unsupplied : (∀ b ∈ supplied, b.site = site → b.kindId ≠ k) ↔
      k ∉ (kept supplied site).map Bear.kindId := by
    rw [mem_map_kindId_kept]
    simp only [not_exists, not_and, ne_eq]
  rw [made, unsupplied, needs_iff built mem, bearsAt, List.map_append, List.mem_append]
  constructor
  · exact fun new => ⟨.inr new, fun old => apart k old k new rfl⟩
  · exact fun ⟨known, new⟩ => known.resolve_left new

theorem isWaiting_iff_declares (sound : r.Sound) {b : Bear w} (here : b ∈ r.bears) :
    r.graph.isWaiting b = true ↔ b.kind.dependencies ≠ [] := by
  rw [WaitGraph.isWaiting_iff]
  constructor
  · rintro ⟨d, edge⟩
    have declared := ((sound.edge_iff d b).1 edge).2.2.2
    exact List.ne_nil_of_mem (Workspace.mem_dependenciesOf.1 declared)
  · intro some
    obtain ⟨k, declared⟩ := List.exists_mem_of_ne_nil _ some
    have needed := Workspace.mem_dependenciesOf.2 declared
    obtain ⟨d, there, site, rfl⟩ := sound.provided b here k needed
    exact ⟨d, (sound.edge_iff d b).2 ⟨there, here, site, needed⟩⟩

theorem entryPoints_eq_filter (sound : r.Sound) :
    r.entryPoints = r.bears.filter (·.kind.dependencies.isEmpty) := by
  refine List.filter_congr fun b here => ?_
  rw [Bool.not_eq_eq_eq_not, Bool.eq_iff_iff, isWaiting_iff_declares sound here]
  simp

end Roster

/-! ## What assembling builds -/

/-- A roster that was assembled has the bears of one site after another, in the order in which the
sites are first met: the first supplied bear of each kind, and then the bears that were made there,
one for each kind that the site needs and that was not supplied. Bears wait on exactly those of
their site whose kinds their own kind declares. Who may start are the bears of all kinds that
declare nothing, each once, in the order of the bears, and nobody waits on itself. -/
theorem assemble_builds {nextId : Nat} {supplied : List (Bear w)} {said : List (Notice w)}
    {r : Roster w} (built : Roster.assemble nextId supplied = (said, .ok r)) :
    r.bears = (Roster.sites supplied).flatMap (fun site =>
        Roster.kept supplied site ++ (madeIn said).filter (·.site = site)) ∧
      (madeIn said).map Bear.id = List.range' nextId (madeIn said).length ∧
      (∀ b ∈ madeIn said, b.site ∈ Roster.sites supplied) ∧
      (∀ site ∈ Roster.sites supplied,
        (((madeIn said).filter (·.site = site)).map Bear.kindId).Nodup ∧
          ∀ k, (∃ b ∈ madeIn said, b.site = site ∧ b.kindId = k) ↔
            Roster.Needs supplied site k ∧ ∀ b ∈ supplied, b.site = site → b.kindId ≠ k) ∧
      (∀ d b, r.graph.Edge d b ↔
        d ∈ r.bears ∧ b ∈ r.bears ∧ d.site = b.site ∧ w.Declares b.kindId d.kindId) ∧
      r.entryPoints.Nodup ∧
      r.entryPoints = r.bears.filter (·.kind.dependencies.isEmpty) ∧
      r.graph.Acyclic := by
  have sound := Roster.sound_of_assemble (congrArg Prod.snd built)
  refine ⟨Roster.bears_of_assemble built, (Roster.completes_assemble built).numbered,
    fun _ => Roster.site_mem_sites built, fun _ => Roster.made_iff_needs built, fun d b => ?_,
    sound.nodup.filter _, Roster.entryPoints_eq_filter sound,
    WaitGraph.acyclic_of_wellFounded sound.founded⟩
  rw [sound.edge_iff, Workspace.mem_dependenciesOf]

/-! ## A roster of two sites -/

namespace Twins

/-- Two kinds of the same name, and a third that declares one of them twice. There are two sites
with the same contents. -/
def workspace : Workspace where
  kindCount := 3
  kinds := #v[⟨"Lint", .corpus, [], .empty⟩, ⟨"Lint", .corpus, [], .empty⟩,
    ⟨"Report", .delivery, [0, 1, 0], .empty⟩]
  sections := #[.new "all", .new "all"]
  corpora := #[.ofList []]

def first : Site workspace := ⟨⟨0, by decide⟩, ⟨0, by decide⟩⟩

def second : Site workspace := ⟨⟨1, by decide⟩, ⟨0, by decide⟩⟩

/-- The first site has two bears of one kind, the second has one that another depends on. -/
def supplied : List (Bear workspace) :=
  [⟨0, ⟨2, by decide⟩, first, by decide +kernel⟩, ⟨1, ⟨1, by decide⟩, second, by decide +kernel⟩,
    ⟨2, ⟨2, by decide⟩, first, by decide +kernel⟩, ⟨3, ⟨2, by decide⟩, second, by decide +kernel⟩]

def roster : Roster workspace := (Roster.assemble 4 supplied).2.toOption.getD .empty

theorem built : Roster.assemble 4 supplied = ((Roster.assemble 4 supplied).1, .ok roster) := by
  have ok : (Roster.assemble 4 supplied).2.isOk = true := by decide +kernel
  unfold roster
  cases h : Roster.assemble 4 supplied with
  | mk said result =>
    rw [h] at ok
    cases result with
    | ok r => rfl
    | error e => cases ok

end Twins

theorem assemble_builds_twins :
    Twins.roster.bears.map Bear.id = [0, 4, 5, 1, 3, 6] ∧
      (madeIn (Roster.assemble 4 Twins.supplied).1).map Bear.id = [4, 5, 6] ∧
      Twins.roster.entryPoints = Twins.roster.bears.filter (·.kind.dependencies.isEmpty) ∧
      Twins.roster.graph.Acyclic := by
  obtain ⟨bears, numbered, _, _, _, _, entryPoints, acyclic⟩ := assemble_builds Twins.built
  refine ⟨?_, numbered.trans ?_, entryPoints, acyclic⟩
  · rw [bears]
    decide +kernel
  · decide +kernel

end AnalysisScheduler
