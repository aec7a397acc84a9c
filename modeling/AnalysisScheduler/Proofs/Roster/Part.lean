import AnalysisScheduler.Proofs.Graph.Copy
import AnalysisScheduler.Proofs.Roster.Edges
import AnalysisScheduler.Proofs.Roster.Failure

/-!
# One site of a roster

The bears of one site and how they wait on each other are the roster of the bears that were supplied
there (`isPart_of_assemble`). Only the numbers of the bears that have to be made are different: each
bear has its counterpart of the same kind at the same site (`Roster.counterpart`).
-/

namespace AnalysisScheduler

variable {w : Workspace}

namespace Roster

/-- The bear of a roster that has the kind and the site of `b`; if there is none, `b` itself. -/
def counterpart (r : Roster w) (b : Bear w) : Bear w :=
  (r.bears.find? fun b' => b'.site = b.site ∧ b'.kindId = b.kindId).getD b

/-- The roster `r'` is the part of `r` at a site, with the bears under the names that `ren` gives
them. -/
structure IsPart (site : Site w) (ren : Bear w → Bear w) (r r' : Roster w) : Prop where
  sameKind : ∀ b, (ren b).kindId = b.kindId
  sameSite : ∀ b, (ren b).site = b.site
  bears : r'.bears = (r.bears.filter (·.site = site)).map ren
  graph : r.graph.Copies (r.bears.filter (·.site = site)) ren r'.graph
  entryPoints : r'.entryPoints = (r.entryPoints.filter (·.site = site)).map ren

/-! ## Counterparts -/

section Counterpart

variable {r : Roster w} {site : Site w} {b : Bear w}

theorem find?_counterpart {b' : Bear w}
    (found : (r.bears.find? fun b' => b'.site = b.site ∧ b'.kindId = b.kindId) = some b') :
    b' ∈ r.bears ∧ b'.site = b.site ∧ b'.kindId = b.kindId := by
  refine ⟨List.mem_of_find?_eq_some found, ?_⟩
  have same := List.find?_some found
  exact of_decide_eq_true same

theorem site_counterpart (r : Roster w) (b : Bear w) : (r.counterpart b).site = b.site := by
  unfold counterpart
  cases found : r.bears.find? fun b' => b'.site = b.site ∧ b'.kindId = b.kindId with
  | none => rfl
  | some b' => exact (find?_counterpart found).2.1

theorem kindId_counterpart (r : Roster w) (b : Bear w) :
    (r.counterpart b).kindId = b.kindId := by
  unfold counterpart
  cases found : r.bears.find? fun b' => b'.site = b.site ∧ b'.kindId = b.kindId with
  | none => rfl
  | some b' => exact (find?_counterpart found).2.2

theorem counterpart_mem {b' : Bear w} (there : b' ∈ r.bears) (site : b'.site = b.site)
    (kind : b'.kindId = b.kindId) : r.counterpart b ∈ r.bears := by
  unfold counterpart
  cases found : r.bears.find? fun b' => b'.site = b.site ∧ b'.kindId = b.kindId with
  | none => exact absurd (decide_eq_true ⟨site, kind⟩) (List.find?_eq_none.1 found b' there)
  | some b' => exact (find?_counterpart found).1

theorem counterpart_of_mem (sound : r.Sound) (here : b ∈ r.bears) : r.counterpart b = b :=
  sound.unique _ (counterpart_mem here rfl rfl) b here (r.site_counterpart b)
    (r.kindId_counterpart b)

/-- The bears of a site are known from their kinds. -/
theorem Sound.eq_of_map_kindId (sound : r.Sound) {as bs : List (Bear w)}
    (left : ∀ a ∈ as, a ∈ r.bears ∧ a.site = site) (right : ∀ b ∈ bs, b ∈ r.bears ∧ b.site = site)
    (same : as.map Bear.kindId = bs.map Bear.kindId) : as = bs := by
  induction as generalizing bs with
  | nil => exact (List.map_eq_nil_iff.1 same.symm).symm
  | cons a as ih =>
    cases bs with
    | nil => cases same
    | cons b bs =>
      obtain ⟨kind, same⟩ := List.cons.inj same
      obtain ⟨here, site_a⟩ := left a List.mem_cons_self
      obtain ⟨there, site_b⟩ := right b List.mem_cons_self
      rw [sound.unique a here b there (site_a.trans site_b.symm) kind]
      exact congrArg (b :: ·) (ih (fun a mem => left a (List.mem_cons_of_mem _ mem))
        (fun b mem => right b (List.mem_cons_of_mem _ mem)) same)

end Counterpart

/-! ## The bears of one site -/

theorem flatMap_ite_eq {α β : Type} [DecidableEq α] {xs : List α} (nodup : xs.Nodup) (x : α)
    (ys : List β) : (xs.flatMap fun y => if y = x then ys else []) = if x ∈ xs then ys else [] := by
  induction xs with
  | nil => rfl
  | cons y rest ih =>
    obtain ⟨notInRest, nodup⟩ := List.nodup_cons.1 nodup
    rw [List.flatMap_cons, ih nodup]
    by_cases same : y = x
    · subst same
      simp [notInRest]
    · simp [same, Ne.symm same]

variable {nextId nextId' : Nat} {supplied : List (Bear w)} {said said' : List (Notice w)}
  {r r' : Roster w}

theorem nodup_sites (supplied : List (Bear w)) : (sites supplied).Nodup :=
  keys_enlistAll supplied ▸ (enlistAll .empty supplied).1.nodup_keys

theorem filter_bears_eq (built : assemble nextId supplied = (said, .ok r)) (site : Site w) :
    r.bears.filter (·.site = site) =
      if site ∈ sites supplied then bearsAt supplied said site else [] := by
  rw [bears_of_assemble built, List.filter_flatMap, ← flatMap_ite_eq (nodup_sites supplied)]
  refine List.flatMap_congr fun site' _ => ?_
  split
  · rename_i same
    rw [filter_site_eq_self fun b mem => same ▸ site_of_mem_bearsAt mem, same]
  · rename_i other
    exact filter_site_eq_nil fun b mem same => other ((site_of_mem_bearsAt mem).symm.trans same)

theorem kept_filter (supplied : List (Bear w)) (site : Site w) :
    kept (supplied.filter (·.site = site)) site = kept supplied site := by
  unfold kept
  rw [List.filter_filter]
  simp only [Bool.and_self]

theorem mem_sites_filter {site site' : Site w} :
    site' ∈ sites (supplied.filter (·.site = site)) ↔ site' = site ∧ site ∈ sites supplied := by
  simp only [mem_sites, List.mem_filter, decide_eq_true_eq]
  constructor
  · rintro ⟨b, ⟨mem, here⟩, rfl⟩
    exact ⟨here, b, mem, here⟩
  · rintro ⟨rfl, b, mem, here⟩
    exact ⟨b, ⟨mem, here⟩, here⟩

/-- Where a roster can be assembled, it can be assembled for each of its sites alone. -/
theorem exists_assemble_filter (nextId' : Nat) (built : assemble nextId supplied = (said, .ok r))
    (site : Site w) :
    ∃ said' r', assemble nextId' (supplied.filter (·.site = site)) = (said', .ok r') := by
  have all := assemble_eq_ok_iff.1 ⟨r, congrArg Prod.snd built⟩
  have ok : ∃ r', (assemble nextId' (supplied.filter (·.site = site))).2 = .ok r' := by
    refine assemble_eq_ok_iff.2 fun site' mem => ?_
    obtain ⟨rfl, mem⟩ := mem_sites_filter.1 mem
    rw [kept_filter]
    exact all site' mem
  obtain ⟨r', ok⟩ := ok
  exact ⟨_, r', Prod.ext rfl ok⟩

section Part

variable {site : Site w} (built : assemble nextId supplied = (said, .ok r))
  (built' : assemble nextId' (supplied.filter (·.site = site)) = (said', .ok r'))

include built' in
theorem site_of_mem_part {b : Bear w} (here : b ∈ r'.bears) : b.site = site :=
  (mem_sites_filter.1 ((mem_bears_iff built').1 here).1).1

include built built' in
/-- The bears of a site are of the same kinds, in the same order, as in the roster of the site. -/
theorem map_kindId_part :
    (r.bears.filter (·.site = site)).map Bear.kindId = r'.bears.map Bear.kindId := by
  have alone : r'.bears.filter (·.site = site) = r'.bears :=
    filter_site_eq_self fun b here => site_of_mem_part built' here
  rw [← alone, filter_bears_eq built, filter_bears_eq built']
  by_cases mem : site ∈ sites supplied
  · have mem' : site ∈ sites (supplied.filter (·.site = site)) :=
       mem_sites_filter.2 ⟨rfl, mem⟩
    rw [if_pos mem, if_pos mem', map_kindId_bearsAt built mem, map_kindId_bearsAt built' mem',
      kept_filter]
  · rw [if_neg mem, if_neg fun mem' => mem (mem_sites_filter.1 mem').2]

include built built' in
theorem counterpart_mem_part {b : Bear w} (here : b ∈ r.bears) (same : b.site = site) :
    r'.counterpart b ∈ r'.bears := by
  have known : b.kindId ∈ (r.bears.filter (·.site = site)).map Bear.kindId :=
    List.mem_map_of_mem (List.mem_filter.2 ⟨here, decide_eq_true same⟩)
  rw [map_kindId_part built built'] at known
  obtain ⟨b', there, kind⟩ := List.mem_map.1 known
  exact counterpart_mem there ((site_of_mem_part built' there).trans same.symm) kind

include built built' in
/-- A supplied bear that is in the roster stands for itself. -/
theorem counterpart_of_supplied {b : Bear w} (here : b ∈ r.bears) (old : b ∈ supplied)
    (same : b.site = site) : r'.counterpart b = b := by
  obtain ⟨b₀, first, kind⟩ := List.mem_map.1 (mem_map_kindId_kept.2 ⟨b, old, same, rfl⟩)
  have site₀ : b₀.site = site := (mem_kept first).2
  have known : site ∈ sites supplied := mem_sites.2 ⟨b, old, same⟩
  -- The first supplied bear of the kind is in the roster too, so it is `b`.
  have one : b₀ = b := (sound_of_assemble (congrArg Prod.snd built)).unique b₀
    ((mem_bears_iff built).2 (site₀ ▸ ⟨known, List.mem_append_left _ first⟩)) b here
    (site₀.trans same.symm) kind
  subst one
  have kept' : b₀ ∈ kept (supplied.filter (·.site = site)) site :=
    (kept_filter supplied site).symm ▸ first
  have there : b₀ ∈ r'.bears := (mem_bears_iff built').2
    ⟨site₀.symm ▸ mem_sites_filter.2 ⟨rfl, known⟩, site₀.symm ▸ List.mem_append_left _ kept'⟩
  exact counterpart_of_mem (sound_of_assemble (congrArg Prod.snd built')) there

theorem mem_part {b : Bear w} :
    b ∈ r.bears.filter (·.site = site) ↔ b ∈ r.bears ∧ b.site = site := by
  rw [List.mem_filter, decide_eq_true_eq]

include built built' in
/-- Bears of the roster of the site that have the kinds of some bears of the site are their
counterparts. -/
theorem eq_map_counterpart {bs bs' : List (Bear w)}
    (all : ∀ b ∈ bs, b ∈ r.bears.filter (·.site = site)) (all' : ∀ b' ∈ bs', b' ∈ r'.bears)
    (kinds : bs'.map Bear.kindId = bs.map Bear.kindId) : bs' = bs.map r'.counterpart := by
  have mine : ∀ b' ∈ r'.bears, b' ∈ r'.bears ∧ b'.site = site := fun b' here =>
    ⟨here, site_of_mem_part built' here⟩
  refine (sound_of_assemble (congrArg Prod.snd built')).eq_of_map_kindId
    (fun b' mem => mine b' (all' b' mem)) (fun b' mem => ?_) (kinds.trans ?_)
  · obtain ⟨b, inside, rfl⟩ := List.mem_map.1 mem
    obtain ⟨here, same⟩ := mem_part.1 (all b inside)
    exact mine _ (counterpart_mem_part built built' here same)
  · rw [List.map_map]
    exact (List.map_congr_left fun b _ => r'.kindId_counterpart b).symm

include built built' in
/-- At the site the bears wait on each other as in the roster of the site, in the same order. -/
theorem copies_of_assemble :
    r.graph.Copies (r.bears.filter (·.site = site)) r'.counterpart r'.graph := by
  have sound := sound_of_assemble (congrArg Prod.snd built)
  have sound' := sound_of_assemble (congrArg Prod.snd built')
  have closed : ∀ a ∈ r.bears.filter (·.site = site), ∀ b, r.graph.Edge a b ∨ r.graph.Edge b a →
      b ∈ r.bears.filter (·.site = site) := by
    rintro a mem b (edge | edge)
    · obtain ⟨_, there, same, _⟩ := (sound.edge_iff a b).1 edge
      exact mem_part.2 ⟨there, same.symm.trans (mem_part.1 mem).2⟩
    · obtain ⟨there, _, same, _⟩ := (sound.edge_iff b a).1 edge
      exact mem_part.2 ⟨there, same.trans (mem_part.1 mem).2⟩
  refine {
    injective := fun a left b right same => ?_
    closed := closed
    dependants := fun b mem => ?_
    dependencies := fun b mem => ?_ }
  · refine sound.unique a (mem_part.1 left).1 b (mem_part.1 right).1 ?_ ?_
    · rw [← r'.site_counterpart a, same, r'.site_counterpart]
    · rw [← r'.kindId_counterpart a, same, r'.kindId_counterpart]
  -- Both orders are those of a walk through the kinds, which starts with the same kinds.
  · obtain ⟨here, same⟩ := mem_part.1 mem
    refine eq_map_counterpart built built' (fun x edge => closed b mem x (.inl edge))
      (fun x edge => ((sound'.edge_iff _ x).1 edge).2.1) ?_
    rw [(kinds_of_assemble built here).1,
      (kinds_of_assemble built' (counterpart_mem_part built built' here same)).1,
      r'.kindId_counterpart, r'.site_counterpart, same, kept_filter]
  · obtain ⟨here, same⟩ := mem_part.1 mem
    refine eq_map_counterpart built built'
      (fun x edge => closed b mem x (.inr (WaitGraph.edge_iff_mem_dependenciesOf.2 edge)))
      (fun x edge => ((sound'.edge_iff x _).1 (WaitGraph.edge_iff_mem_dependenciesOf.2 edge)).1) ?_
    rw [(kinds_of_assemble built here).2,
      (kinds_of_assemble built' (counterpart_mem_part built built' here same)).2,
      r'.kindId_counterpart, r'.site_counterpart, same, kept_filter]

include built built' in
/-- The roster of the bears that were supplied at a site is the part of the whole roster there. -/
theorem isPart_of_assemble : IsPart site r'.counterpart r r' := by
  have bears : r'.bears = (r.bears.filter (·.site = site)).map r'.counterpart :=
    eq_map_counterpart built built' (fun _ mem => mem) (fun _ mem => mem)
      (map_kindId_part built built').symm
  refine {
    sameKind := r'.kindId_counterpart
    sameSite := r'.site_counterpart
    bears := bears
    graph := copies_of_assemble built built'
    entryPoints := ?_ }
  have alike : (·.kind.dependencies.isEmpty) ∘ r'.counterpart =
      fun b : Bear w => b.kind.dependencies.isEmpty := by
    funext b
    show (w.kind (r'.counterpart b).kindId).dependencies.isEmpty = _
    rw [r'.kindId_counterpart]
    rfl
  rw [entryPoints_eq_filter (sound_of_assemble (congrArg Prod.snd built)),
    entryPoints_eq_filter (sound_of_assemble (congrArg Prod.snd built')), bears, List.filter_map,
    alike, List.filter_comm]

end Part

end Roster

end AnalysisScheduler
