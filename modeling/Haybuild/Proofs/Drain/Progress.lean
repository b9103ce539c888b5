import Haybuild.Proofs.Drain.History

/-!
# Rounds of a run

`Progress` says which graph is left before the next round: the nodes that no round could do yet and
that no failure cost. `Progress.round` is the step from one round to the next, and `drain_ends`
follows a run to its end.
-/

namespace Haybuild.Drain
open Relation

variable {σ : Type}

/-- The state of a run before its next round. -/
structure Progress (g : Graph) (crew : Crew σ) (s : σ) (rs : List (List LogEntry)) (d : Drain σ) :
    Prop where
  history : History g crew s rs (fun n => g.contains n ∧ Lost g rs.flatten n) d
  part : g.Part (fun n => ¬g.doneBy rs.length n ∧ ¬Lost g rs.flatten n) d.graph
  alive : crew.failFast → ∀ x ∈ rs.flatten, ¬x.Failed
  cancelled : d.cancelled = false

/-- A round in the middle: from state `d` its nodes were executed, and those of them that did not
fail were removed. -/
structure Ran (g : Graph) (crew : Crew σ) (s : σ) (rs : List (List LogEntry)) (xs : List LogEntry)
    (d d₁ : Drain σ) : Prop where
  before : Progress g crew s rs d
  nodes : ∀ n, n ∈ xs.map LogEntry.node ↔ n ∈ d.graph.frontier
  history : History g crew s (rs ++ [xs]) (fun n => g.contains n ∧ Lost g rs.flatten n) d₁
  part : d.graph.Part (fun n => n ∈ d.graph.frontier → FailedIn xs n) d₁.graph
  cancelled : d₁.cancelled = flagAfter crew.failFast false xs

/-- A run that stopped at a failure: the rounds before it, the round in which it came, and the graph
that is left with its nodes reported. -/
structure Stopped (g : Graph) (crew : Crew σ) (s : σ) (rs : List (List LogEntry))
    (xs : List LogEntry) (d : Drain σ) : Prop where
  history : History g crew s (rs ++ [xs])
    (fun n => d.graph.contains n ∧ n ∉ xs.map LogEntry.node) d
  part : g.Part
    (fun n => ¬g.doneBy rs.length n ∧ (n ∈ xs.map LogEntry.node → FailedIn xs n)) d.graph
  alive : ∀ x ∈ rs.flatten, ¬x.Failed
  failed : ∃ x ∈ xs, x.Failed

/-- How a run of a graph ends. -/
inductive Ends (g : Graph) (crew : Crew σ) (s : σ) : Option Halt → Drain σ → Prop
  /-- No node is left. -/
  | finished {rs d} : Progress g crew s rs d → d.graph.size = 0 → Ends g crew s none d
  /-- The nodes that are left wait for one another. -/
  | stuck {rs d} : Progress g crew s rs d → d.graph.size ≠ 0 → d.graph.frontier = [] →
      Ends g crew s (some (.error (.cycle (d.graph.sortedNames d.graph.nodes)))) d
  | stopped {rs xs d} : crew.failFast = true → Stopped g crew s rs xs d → Ends g crew s none d
  | aborted {x fault d} : Recorded g crew s d → x ∈ d.log → x.ending = .aborted fault →
      Ends g crew s (some (.fault fault)) d

variable {g : Graph} {crew : Crew σ} {s : σ} {rs : List (List LogEntry)} {xs : List LogEntry}
  {d d' : Drain σ} {n : Int} {p : Pool σ}

theorem Progress.start (H : g.Valid) (crew : Crew σ) (s : σ) :
    Progress g crew s [] (g.undrained s) where
  history := by
    have hlost : (fun n => g.contains n ∧ Lost g ([] : List (List LogEntry)).flatten n) =
        fun _ => False := by
      simp [Lost, FailedIn]
    have hrecorded : Recorded g crew s (g.undrained s) :=
      ⟨.nil, fun _ hx => absurd hx List.not_mem_nil⟩
    exact ⟨by simp, rfl, by simp, .nil, hlost ▸ .empty, hrecorded,
      fun _ he => absurd he List.not_mem_nil, rfl, fun _ => ⟨.nil, by simp, rfl⟩⟩
  part := (Graph.Part.refl H).congr H fun n _ => by simp [Lost, FailedIn]
  alive := by simp
  cancelled := rfl

namespace Progress

/-- The next frontier is the next level, save the nodes that are lost. -/
theorem mem_frontier (P : Progress g crew s rs d) (H : g.Valid) :
    n ∈ d.graph.frontier ↔ g.OnLevel rs.length n ∧ ¬Lost g rs.flatten n := by
  rw [P.part.mem_frontier, Graph.OnLevel, H.doneBy_succ]
  constructor
  · rintro ⟨hn, ⟨hdone, hlost⟩, hb⟩
    refine ⟨⟨⟨hn, fun b hnb => ?_⟩, hdone⟩, hlost⟩
    by_contra hb'
    exact hb b hnb ⟨hb', fun h => hlost (h.of_needs hnb)⟩
  · rintro ⟨⟨⟨hn, hb⟩, hdone⟩, hlost⟩
    exact ⟨hn, ⟨hdone, hlost⟩, fun b hnb h => h.1 (hb b hnb)⟩

/-- The nodes of the next frontier have not been executed yet. -/
theorem not_mem_of_mem_frontier (P : Progress g crew s rs d) (H : g.Valid)
    (hn : n ∈ d.graph.frontier) : n ∉ rs.flatten.map LogEntry.node := by
  intro h
  exact ((P.mem_frontier H).1 hn).1.2 (P.history.doneBy H h)

theorem isRound_concat (P : Progress g crew s rs d) (H : g.Valid) (hne : d.graph.frontier ≠ [])
    (hnodes : ∀ n, n ∈ xs.map LogEntry.node ↔ n ∈ d.graph.frontier)
    (hnd : (xs.map LogEntry.node).Nodup) (i : Nat) (hi : i < (rs ++ [xs]).length) :
    IsRound g (rs.flatten ++ xs) i (rs ++ [xs])[i] := by
  have R : IsRound g rs.flatten rs.length xs := by
    refine ⟨?_, hnd, fun n => by rw [hnodes, P.mem_frontier H]⟩
    rintro rfl
    exact hne (List.eq_nil_iff_forall_not_mem.2 fun n hn => by simpa using (hnodes n).2 hn)
  have hxs : ∀ x ∈ xs, ∀ j ≤ rs.length, ¬g.doneBy j x.node := fun x hx j hj hdone =>
    ((R.mem_iff _).1 (List.mem_map_of_mem hx)).1.2 (H.doneBy_mono hj hdone)
  by_cases hlt : i < rs.length
  · rw [List.getElem_append_left hlt]
    exact (P.history.rounds i hlt).append H fun x hx => hxs x hx i (Nat.le_of_lt hlt)
  · have hlast : i = rs.length := by simp at hi; omega
    subst hlast
    rw [List.getElem_concat_length rfl]
    exact R.append H fun x hx => hxs x hx _ (Nat.le_refl _)

/-- The names of the frontier are those that the graph had from the start. -/
theorem names_eq (P : Progress g crew s rs d) {ns : List Int} (h : ∀ n ∈ ns, n ∈ d.graph.frontier) :
    ns.map d.graph.nameOf = ns.map g.nameOf :=
  List.map_congr_left fun n hn => P.part.nameOf_eq (P.part.valid.mem_frontier.1 (h n hn)).1

/-- The frontier that is announced is the next round. -/
theorem frontier_eq (P : Progress g crew s rs d)
    (hnodes : ∀ n, n ∈ xs.map LogEntry.node ↔ n ∈ d.graph.frontier) :
    d.graph.frontier = roundNodes g xs :=
  eq_roundNodes d.graph.frontier_ascending
    (fun _ hn => (P.part.contains_iff.1 (P.part.valid.mem_frontier.1 hn).1).1) hnodes

section
variable (P : Progress g crew s rs d) (H : g.Valid)
  (F : Frontier crew d.graph d.graph.frontier d.cancelled d.host p)
include P H F

/-- The pool of the next round goes on with what is on record. -/
theorem recorded_collect (round : Nat) :
    Recorded g crew s ((d.announce round).collect crew.label p) := by
  refine ⟨P.history.recorded.follows.append F.working.follows, fun x hx => ?_⟩
  rcases List.mem_append.1 hx with hx | hx
  · -- the pool does nothing for what was executed before
    refine (P.history.recorded.explained x hx).congr (fun _ h => h) ?_
    have hmem : x.node ∈ rs.flatten.map LogEntry.node :=
      List.mem_map_of_mem (P.history.log ▸ hx)
    have hnil : deedsOf x.node p.journal = [] := deedsOf_eq_nil fun e he hex =>
      P.not_mem_of_mem_frontier H (F.working.journal e he) (hex ▸ hmem)
    exact deedsOf_append.trans (by rw [hnil, List.append_nil]; rfl)
  · refine (F.working.explained x hx).congr (fun r hr => ((P.part.recipe?_iff _ r).1 hr).1) ?_
    have hmem : x.node ∈ d.graph.frontier :=
      (F.working.mem_iff _).2 (.inl (List.mem_map_of_mem hx))
    have hnil : deedsOf x.node d.journal = [] :=
      P.history.deedsOf_eq_nil (P.not_mem_of_mem_frontier H hmem)
    exact deedsOf_append.trans (by
      rw [show deedsOf x.node (d.announce round).journal = [] from hnil, List.nil_append])

/-- The executions of the next round add a round to the history. -/
theorem history_collect (hne : d.graph.frontier ≠ []) (hf : p.fault? = none) :
    History g crew s (rs ++ [p.log]) (fun n => g.contains n ∧ Lost g rs.flatten n)
      ((d.announce (rs.length + 1)).collect crew.label p) := by
  have hflat : (rs ++ [p.log]).flatten = rs.flatten ++ p.log := List.flatten_concat
  have hnodes := F.handled hf
  have hna := Pool.fault?_eq_none_iff.1 hf
  have hflag : d.cancelled = flagAfter crew.failFast false rs.flatten := by
    rw [P.cancelled, flagAfter_eq_false P.alive]
  refine ⟨?_, ?_, ?_, ?_, ?_, P.recorded_collect H F _, ?_, ?_, fun hturn => ?_⟩
  · rw [hflat]
    exact P.isRound_concat H hne hnodes F.working.nodup
  · rw [hflat, ← P.history.log]
    rfl
  · rw [hflat]
    exact fun x hx => (List.mem_append.1 hx).elim (P.history.not_aborted x) (hna x)
  · rw [hflat]
    exact P.history.warned.append (hflag ▸ F.flagged.warned)
  · rw [hflat]
    exact P.history.results.reportAll hna
  · rw [hflat, List.map_append]
    exact fun e he => (List.mem_append.1 he).elim
      (fun he => List.mem_append_left _ (P.history.journal e he))
      fun he => List.mem_append_right _ ((hnodes _).2 (F.working.journal e he))
  · have hnil : Event.announced p.events = [] := Event.announced_eq_nil F.working.frontier_not_mem
    have hevents : Event.announced
        ((d.announce (rs.length + 1)).collect crew.label p).events =
        Event.announced d.events ++
          [(((rs.length + 1 : Nat) : Int), d.graph.frontier.map d.graph.nameOf)] := by
      simp only [collect, announce, tell, Event.announced_append, hnil, List.append_nil]
      rfl
    rw [hevents, P.history.announced, announcements_concat, P.names_eq fun _ h => h,
      P.frontier_eq hnodes]
  · obtain ⟨hexec, hasc, htold⟩ := P.history.inOrder hturn
    have hpnodes : p.log.map LogEntry.node = d.graph.frontier :=
      (d.graph.frontier_ascending.sublist (F.ordered hturn).sublist).eq_of_mem_iff
        d.graph.frontier_ascending hnodes
    refine ⟨?_, fun xs hxs => ?_, ?_⟩
    · rw [hflat]
      exact hexec.append (hflag ▸ (F.executes hturn).mono fun n r hr =>
        ((P.part.recipe?_iff n r).1 hr).1)
    · rcases List.mem_append.1 hxs with hxs | hxs
      · exact hasc xs hxs
      · cases List.mem_singleton.1 hxs
        exact hpnodes ▸ d.graph.frontier_ascending
    · have hnames : (p.log.map fun x => g.nameOf x.node) =
          d.graph.frontier.map d.graph.nameOf := by
        rw [P.names_eq fun _ h => h, ← hpnodes, List.map_map]
        rfl
      rw [toldFrom_concat, ← htold, toldRound, hnames, ← F.events hturn, Nat.add_comm 1]
      exact List.append_assoc ..

end

end Progress

/-- After the executions of a round the nodes that did not fail can be removed. -/
theorem Progress.ran (P : Progress g crew s rs d) (H : g.Valid) (hne : d.graph.frontier ≠ [])
    (F : Frontier crew d.graph d.graph.frontier d.cancelled d.host p) (hf : p.fault? = none) :
    ∃ d₁, removeAll (d.graph.frontier.filter fun n => !p.failed.contains n)
        ((d.announce (rs.length + 1)).collect crew.label p) = (none, d₁) ∧
      Ran g crew s rs p.log d d₁ := by
  obtain ⟨g', hrun, hpart⟩ := removeAll_spec (d.graph.frontier.filter fun n => !p.failed.contains n)
    ((d.announce (rs.length + 1)).collect crew.label p) P.part.valid
    (d.graph.frontier_ascending.nodup.filter _) fun n hn =>
      (P.part.valid.mem_frontier.1 (List.mem_filter.1 hn).1).1
  have A := P.history_collect H F hne hf
  refine ⟨_, hrun, P, F.handled hf, A.report rfl A.results, hpart.congr P.part.valid fun n _ => ?_,
    ?_⟩
  · simp only [List.mem_filter, Bool.not_eq_true', List.contains_eq_mem, decide_eq_false_iff_not,
      Pool.failed, mem_failedNodes, not_and, not_not]
  · exact F.flagged.cancelled.trans (by rw [P.cancelled])

namespace Ran

variable {d₁ d₂ : Drain σ} {f : Int}

theorem mem_frontier (R : Ran g crew s rs xs d d₁) (H : g.Valid)
    (hf : FailedIn xs f) : g.OnLevel rs.length f ∧ ¬Lost g rs.flatten f :=
  (R.before.mem_frontier H).1 ((R.nodes f).1 hf.mem_map)

/-- The graph in the middle of a round is a part of the whole graph. -/
theorem part_whole (R : Ran g crew s rs xs d d₁) :
    g.Part (fun n => (¬g.doneBy rs.length n ∧ ¬Lost g rs.flatten n) ∧
      (n ∈ d.graph.frontier → FailedIn xs n)) d₁.graph :=
  R.before.part.trans R.part

/-- From a node that no failure cost so far, the way to a failed node of the round is still
there. -/
theorem reflTransGen_failed (R : Ran g crew s rs xs d d₁) (H : g.Valid)
    (hf : FailedIn xs f) (hn : ¬Lost g rs.flatten n) (h : ReflTransGen g.Needs n f) :
    ReflTransGen d₁.graph.Needs n f := by
  obtain ⟨hlevel, hlost⟩ := R.mem_frontier H hf
  refine R.part_whole.reflTransGen_of_forall h fun m hnm hmf => ?_
  rcases reflTransGen_iff_eq_or_transGen.1 hmf with rfl | hmf
  · exact ⟨⟨hlevel.2, hlost⟩, fun _ => hf⟩
  · have hm : ¬g.doneBy (rs.length + 1) m := fun hm => hlevel.2 (H.doneBy_of_transGen hmf hm)
    exact ⟨⟨fun h => hm (H.doneBy_succ_of_doneBy h), fun h => hn (h.of_reflTransGen hnm)⟩,
      fun h => absurd ((R.before.mem_frontier H).1 h).1.1 hm⟩

/-- A run that fails fast stops after a round with a failure. -/
theorem stop (R : Ran g crew s rs xs d d₁) (H : g.Valid) (hff : crew.failFast = true)
    (hfailed : ∃ x ∈ xs, x.Failed) : Stopped g crew s rs xs (skipAll crew.label d₁) := by
  have hlost : ∀ n, ¬Lost g rs.flatten n := fun n ⟨_, _, x, hx, _, hf⟩ =>
    R.before.alive hff x hx hf
  obtain ⟨m, hrun, hfills⟩ := skipAll_spec crew.label d₁
  rw [hrun]
  refine ⟨R.history.report rfl (R.history.results.fills hfills (fun n h => .inr h.1)
    (fun n h => absurd h.2 (hlost n)) fun n h => ?_), R.part_whole.congr H fun n _ => ?_,
    R.before.alive hff, hfailed⟩
  · by_cases hn : n ∈ xs.map LogEntry.node
    · obtain ⟨x, hx, rfl⟩ := List.mem_map.1 hn
      exact .inr ⟨x, by simp [hx], rfl⟩
    · exact .inl ⟨h, hn⟩
  · rw [R.nodes, and_iff_left (hlost n)]

/-! ### Dropping what the failures of a round cost -/

section
variable (hdrop : d₁.graph.Part
  (fun n => ∀ f, FailedIn xs f → ¬ReflTransGen d₁.graph.Needs n f) d₂.graph)
include hdrop

/-- What is left is what no round could do and no failure cost. -/
theorem part_dropped (R : Ran g crew s rs xs d d₁) (H : g.Valid) :
    g.Part (fun n => ¬g.doneBy (rs.length + 1) n ∧ ¬Lost g (rs.flatten ++ xs) n) d₂.graph := by
  refine (R.part_whole.trans hdrop).congr H fun n _ => ⟨?_, ?_⟩
  · rintro ⟨⟨⟨hdone, hlost⟩, hfailed⟩, hreach⟩
    refine ⟨fun hsucc => ?_, fun h => ?_⟩
    · exact hreach n (hfailed ((R.before.mem_frontier H).2 ⟨⟨hsucc, hdone⟩, hlost⟩)) .refl
    · obtain ⟨f, hnf, hf⟩ := (lost_append.1 h).resolve_left hlost
      exact hreach f hf (R.reflTransGen_failed H hf hlost hnf.to_reflTransGen)
  · rintro ⟨hsucc, hlost⟩
    rw [lost_append, not_or] at hlost
    refine ⟨⟨⟨fun h => hsucc (H.doneBy_succ_of_doneBy h), hlost.1⟩, fun h => ?_⟩, fun f hf h => ?_⟩
    · exact absurd ((R.before.mem_frontier H).1 h).1.1 hsucc
    · rcases reflTransGen_iff_eq_or_transGen.1 (R.part_whole.reflTransGen h) with rfl | hnf
      · exact hsucc (R.mem_frontier H hf).1.1
      · exact hlost.2 ⟨f, hnf, hf⟩

/-- A node that a failure of the round costs goes away. -/
theorem gone_of_lost (R : Ran g crew s rs xs d d₁) (H : g.Valid)
    (hlost : ¬Lost g rs.flatten n) (h : Lost g xs n) : Gone d₁ d₂ n := by
  obtain ⟨f, hnf, hf⟩ := h
  have hreach := R.reflTransGen_failed H hf hlost hnf.to_reflTransGen
  obtain ⟨hlevel, hlost'⟩ := R.mem_frontier H hf
  have hf' : d₁.graph.contains f := R.part_whole.contains_iff.2
    ⟨H.contains_of_doneBy hlevel.1, ⟨hlevel.2, hlost'⟩, fun _ => hf⟩
  exact ⟨(R.part.valid.contains_iff_of_reflTransGen hreach).2 hf',
    fun h => (hdrop.contains_iff.1 h).2 f hf hreach⟩

/-- A node that goes away failed itself or is lost. -/
theorem lost_or_failed_of_gone (R : Ran g crew s rs xs d d₁)
    (h : Gone d₁ d₂ n) : Lost g xs n ∨ FailedIn xs n := by
  obtain ⟨f, hf, hnf⟩ : ∃ f, FailedIn xs f ∧ ReflTransGen d₁.graph.Needs n f := by
    by_contra hall
    exact h.2 (hdrop.contains_iff.2 ⟨h.1, fun f hf hnf => hall ⟨f, hf, hnf⟩⟩)
  rcases reflTransGen_iff_eq_or_transGen.1 (R.part_whole.reflTransGen hnf) with rfl | hnf
  · exact .inr hf
  · exact .inl ⟨f, hnf, hf⟩

/-- A run goes on after a round by dropping what the failures of the round cost. -/
theorem drop (R : Ran g crew s rs xs d d₁) (H : g.Valid)
    (halive : crew.failFast → ∀ x ∈ xs, ¬x.Failed) (hskips : Skips crew.label d₁ d₂) :
    Progress g crew s (rs ++ [xs]) d₂ := by
  have hflat : (rs ++ [xs]).flatten = rs.flatten ++ xs := List.flatten_concat
  have hreported : Reported crew.label (rs ++ [xs]).flatten
      (fun n => g.contains n ∧ Lost g (rs ++ [xs]).flatten n) d₂.results := by
    refine R.history.results.fills hskips.fills ?_ ?_ ?_ <;> rw [hflat]
    · rintro n ⟨hn, h⟩
      by_cases hlost : Lost g rs.flatten n
      · exact .inl ⟨hn, hlost⟩
      · exact .inr (R.gone_of_lost hdrop H hlost ((lost_append.1 h).resolve_left hlost))
    · exact fun n h => ⟨h.1, lost_append.2 (.inl h.2)⟩
    · intro n h
      rcases R.lost_or_failed_of_gone hdrop h with hlost | ⟨x, hx, hxn, -⟩
      · exact .inl ⟨(R.part_whole.contains_iff.1 h.1).1, lost_append.2 (.inr hlost)⟩
      · exact .inr ⟨x, List.mem_append_right _ hx, hxn⟩
  refine ⟨R.history.report hskips.frame hreported, ?_, ?_, ?_⟩
  · rw [hflat, List.length_append]
    exact R.part_dropped hdrop H
  · rw [hflat]
    exact fun hff x hx => (List.mem_append.1 hx).elim (R.before.alive hff x) (halive hff x)
  · rw [hskips.frame]
    exact R.cancelled.trans (flagAfter_eq_false halive)

end

end Ran

/-- One round: the run ends in it, or goes on with fewer nodes. -/
theorem Progress.round (P : Progress g crew s rs d) (H : g.Valid) (hsize : d.graph.size ≠ 0)
    (hne : d.graph.frontier ≠ []) :
    (∃ halt d', Ends g crew s halt d' ∧ ∀ bound,
      rounds crew (bound + 1) (rs.length + 1) d = (halt, d')) ∨
    ∃ xs d', Progress g crew s (rs ++ [xs]) d' ∧ d'.graph.size < d.graph.size ∧
      ∀ bound, rounds crew (bound + 1) (rs.length + 1) d =
        rounds crew bound (rs.length + 1 + 1) d' := by
  obtain ⟨p, F, hrun⟩ := rounds_succ crew P.part.valid hsize hne (rs.length + 1)
  cases hf : p.fault? with
  | some fault =>
    obtain ⟨x, hx, hfault⟩ := Pool.exists_of_fault?_eq_some hf
    refine .inl ⟨_, _, .aborted (P.recorded_collect H F (rs.length + 1)) ?_ hfault, fun bound => ?_⟩
    · exact List.mem_append_right _ hx
    · rw [hrun, hf]
  | none =>
    obtain ⟨d₁, hremove, R⟩ := P.ran H hne F hf
    have hfailed : p.failed.isEmpty = false ↔ ∃ x ∈ p.log, x.Failed := by
      simp [Pool.failed]
    by_cases hstop : crew.failFast = true ∧ ∃ x ∈ p.log, x.Failed
    · refine .inl ⟨none, _, .stopped hstop.1 (R.stop H hstop.1 hstop.2), fun bound => ?_⟩
      rw [hrun, hf]
      dsimp only
      rw [hremove]
      dsimp only
      rw [if_pos]
      simp [hstop.1, hfailed.2 hstop.2]
    · obtain ⟨d₂, hdropped, hskips, hdrop⟩ := dropFailed_spec crew.label p.failed d₁ R.part.valid
      simp only [Pool.failed, mem_failedNodes] at hdrop
      obtain ⟨n, hn⟩ := List.exists_mem_of_ne_nil _ hne
      have hlt : d₂.graph.size < d.graph.size :=
        (R.part.trans hdrop).size_lt (P.part.valid.mem_frontier.1 hn).1
          fun ⟨hfailed, hreach⟩ => hreach n (hfailed hn) .refl
      refine .inr ⟨p.log, d₂, R.drop hdrop H (fun hff x hx hf => hstop ⟨hff, x, hx, hf⟩) hskips,
        hlt, fun bound => ?_⟩
      rw [hrun, hf]
      dsimp only
      rw [hremove]
      dsimp only
      rw [if_neg, hdropped]
      simpa [hfailed] using hstop

/-- From a state between two rounds a run comes to an end, as every round takes a node away. -/
theorem rounds_ends (H : g.Valid) {bound : Nat} (P : Progress g crew s rs d)
    (hbound : d.graph.size < bound) :
    ∃ halt d', rounds crew bound (rs.length + 1) d = (halt, d') ∧ Ends g crew s halt d' := by
  induction bound generalizing rs d with
  | zero => cases hbound
  | succ bound ih =>
    by_cases hsize : d.graph.size = 0
    · exact ⟨none, d, by rw [rounds, if_pos hsize], .finished P hsize⟩
    by_cases hne : d.graph.frontier = []
    · exact ⟨_, d, by rw [rounds, if_neg hsize, hne], .stuck P hsize hne⟩
    rcases P.round H hsize hne with ⟨halt, d', hends, hrun⟩ | ⟨xs, d', P', hlt, hrun⟩
    · exact ⟨halt, d', hrun bound, hends⟩
    · rw [hrun]
      simpa using ih P' (by omega)

/-- Every run of a graph ends in one of these ways, whatever schedule its host has. -/
theorem drain_ends (H : g.Valid) (crew : Crew σ) (s : σ) :
    ∃ halt d, g.drain crew s = (halt, d) ∧ Ends g crew s halt d :=
  rounds_ends H (.start H crew s) (Nat.lt_succ_self _)

theorem Ends.recorded {halt : Option Halt} (E : Ends g crew s halt d) : Recorded g crew s d := by
  cases E with
  | finished P => exact P.history.recorded
  | stuck P => exact P.history.recorded
  | stopped _ S => exact S.history.recorded
  | aborted R => exact R

end Haybuild.Drain
