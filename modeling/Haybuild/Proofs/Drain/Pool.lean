import Haybuild.Proofs.Drain.Log
import Haybuild.Proofs.Graph.Valid

/-!
# What a pool does

Whatever turns a pool is given, it is changed only by steps of its recipes and by results that are
handled. `Crew.run_induction` is the induction by which what these two keep holds after a run. The
recipes, the log and the journal of a pool belong together all the time (`Working`), the cancel flag
tells of the failures that were handled (`Flagged`), and at the end every result was handled, unless
there was a fault (`Crew.get?_run`).
-/

namespace Haybuild

variable {σ : Type} {crew : Crew σ} {g : Graph} {ns : List Int} {c : Bool} {s : σ} {p p' : Pool σ}
  {n k : Int} {j : Job} {turns : List Turn}

namespace Crew

theorem advance_eq (hj : p.jobs.get? n = some j) :
    crew.advance n p =
      let x := j.stage.step crew.host crew.setting j.recipe p.cancelled p.host
      { p with
        jobs := p.jobs.set n ⟨j.recipe, x.stage, j.told ++ x.events⟩
        host := x.host
        journal := p.journal ++ x.deeds.map (n, ·)
        events := p.events ++ x.events } := by
  rw [advance, hj]

theorem handle_eq {r : Recipe} {e : Ending} {told : List Event} (hf : p.fault? = none)
    (hj : p.jobs.get? n = some ⟨r, .ended e, told⟩) :
    crew.handle n p =
      let x : LogEntry := ⟨n, told, e⟩
      { p with
        jobs := p.jobs.erase n
        cancelled := p.cancelled || crew.failFast && x.Failed
        log := p.log ++ [x]
        events := p.events ++ x.report (crew.label n) } := by
  rw [handle, hf, hj]

/-- To advance a recipe that is not in the pool does nothing. -/
theorem advance_cases (crew : Crew σ) (n : Int) (p : Pool σ) :
    crew.advance n p = p ∨ ∃ j, p.jobs.get? n = some j := by
  cases hj : p.jobs.get? n with
  | none => exact .inl (by rw [advance, hj])
  | some j => exact .inr ⟨j, rfl⟩

/-- A result is handled if it is there and no fault came before. -/
theorem handle_cases (crew : Crew σ) (n : Int) (p : Pool σ) :
    crew.handle n p = p ∨
      ∃ r e told, p.fault? = none ∧ p.jobs.get? n = some ⟨r, .ended e, told⟩ := by
  unfold handle
  split
  · next r e told hf hj => exact .inr ⟨r, e, told, hf, hj⟩
  · exact .inl rfl

/-! ## Induction -/

section
variable {P : Pool σ → Prop} (hadvance : ∀ n p, P p → P (crew.advance n p))
include hadvance

theorem advanceBy_induction (k : Nat) (H : P p) : P (crew.advanceBy n k p) := by
  induction k generalizing p with
  | zero => exact H
  | succ k ih => exact ih (hadvance n p H)

theorem complete_induction (H : P p) : P (crew.complete n p) := by
  rw [complete]
  split
  · exact H
  · exact advanceBy_induction hadvance _ H

variable (hhandle : ∀ n p, P p → P (crew.handle n p))
include hhandle

theorem settle_induction (H : P p) : P (crew.settle p n) := by
  rw [settle]
  split
  · exact H
  · exact hhandle _ _ (complete_induction hadvance H)

theorem take_induction (turn : Turn) (H : P p) : P (crew.take p turn) := by
  cases turn with
  | work n =>
    rw [take]
    split
    · exact hadvance n p H
    · exact H
  | handle n => exact hhandle n p H

/-- What the steps of recipes and the handling of results keep holds after a run. -/
theorem run_induction (turns : List Turn) (H : P p) : P (crew.run turns p) := by
  have hturns : P (turns.foldl crew.take p) :=
    List.foldlRecOn turns crew.take H fun p hp turn _ => take_induction hadvance hhandle turn hp
  exact List.foldlRecOn _ crew.settle hturns fun p hp n _ => settle_induction hadvance hhandle hp

end

end Crew

/-! ## Recipes, log and journal -/

/-- What a pool has done so far with the recipes of nodes `ns`, from state `s` of the host on. -/
structure Working (crew : Crew σ) (g : Graph) (ns : List Int) (s : σ) (p : Pool σ) : Prop where
  mem_iff : ∀ n, n ∈ ns ↔ n ∈ p.log.map LogEntry.node ∨ (p.jobs.get? n).isSome
  nodup : (p.log.map LogEntry.node).Nodup
  not_mem_log : ∀ n j, p.jobs.get? n = some j → n ∉ p.log.map LogEntry.node
  jobs : ∀ n j, p.jobs.get? n = some j → g.recipe? n = some j.recipe ∧
    LeadsTo j.recipe.name j.recipe.commands (deedsOf n p.journal) j.stage
  explained : ∀ x ∈ p.log, x.Explained g p.journal
  journal : ∀ e ∈ p.journal, e.1 ∈ ns
  follows : Follows crew.host crew.setting s p.journal p.host
  frontier_not_mem : ∀ index names, .frontier index names ∉ p.events

namespace Working

theorem advance (n : Int) (p : Pool σ) (W : Working crew g ns s p) :
    Working crew g ns s (crew.advance n p) := by
  obtain hid | ⟨j, hj⟩ := crew.advance_cases n p
  · rwa [hid]
  rw [Crew.advance_eq hj]
  have M := Stage.moves_step crew.host crew.setting j.recipe p.cancelled p.host j.stage
  generalize j.stage.step crew.host crew.setting j.recipe p.cancelled p.host = x at M
  have hn : n ∉ p.log.map LogEntry.node := W.not_mem_log n j hj
  refine ⟨fun k => ?_, W.nodup, fun k j' hk => ?_, fun k j' hk => ?_, fun y hy => ?_,
    fun e he => ?_, ?_, fun index names hmem => ?_⟩
  · rw [W.mem_iff, NodeMap.get?_set]
    split
    · next hkn => simp [hkn, hj]
    · rfl
  · by_cases hkn : k = n
    · exact hkn ▸ hn
    · exact W.not_mem_log k j' ((NodeMap.get?_set_of_ne hkn).symm.trans hk)
  · dsimp only at hk ⊢
    rw [deedsOf_append]
    by_cases hkn : k = n
    · subst hkn
      rw [NodeMap.get?_set_self] at hk
      cases hk
      rw [deedsOf_map_self]
      exact ⟨(W.jobs k j hj).1, (W.jobs k j hj).2.step M⟩
    · rw [NodeMap.get?_set_of_ne hkn] at hk
      rw [deedsOf_map_of_ne (Ne.symm hkn), List.append_nil]
      exact W.jobs k j' hk
  · refine (W.explained y hy).congr (fun _ h => h) ?_
    have hne : n ≠ y.node := fun hny => hn (hny ▸ List.mem_map_of_mem hy)
    rw [deedsOf_append, deedsOf_map_of_ne hne, List.append_nil]
  · rcases List.mem_append.1 he with he | he
    · exact W.journal e he
    · obtain ⟨deed, -, rfl⟩ := List.mem_map.1 he
      exact (W.mem_iff n).2 (.inr (by simp [hj]))
  · rcases M.deeds_eq with ⟨hdeeds, hhost⟩ | ⟨deed, hdeeds, H⟩
    · simpa only [hdeeds, hhost, List.map_nil, List.append_nil] using W.follows
    · simpa only [hdeeds, List.map_cons, List.map_nil] using W.follows.append (.cons H .nil)
  · rcases List.mem_append.1 hmem with hmem | hmem
    · exact W.frontier_not_mem index names hmem
    · exact M.frontier_not_mem index names hmem

theorem handle (n : Int) (p : Pool σ) (W : Working crew g ns s p) :
    Working crew g ns s (crew.handle n p) := by
  obtain hid | ⟨r, e, told, hf, hj⟩ := crew.handle_cases n p
  · rwa [hid]
  rw [Crew.handle_eq hf hj]
  have hn : n ∉ p.log.map LogEntry.node := W.not_mem_log n _ hj
  refine ⟨fun k => ?_, ?_, fun k j' hk => ?_, fun k j' hk => ?_, fun y hy => ?_, W.journal,
    W.follows, fun index names hmem => ?_⟩
  · rw [W.mem_iff, NodeMap.get?_erase, List.map_append, List.mem_append]
    by_cases hkn : k = n
    · simp [hkn, hj]
    · simp [hkn]
  · rw [List.map_append, List.map_singleton]
    refine List.nodup_append.2 ⟨W.nodup, List.nodup_singleton n, fun a ha b hb hab => hn ?_⟩
    obtain rfl : a = n := hab.trans (List.mem_singleton.1 hb)
    exact ha
  · obtain ⟨hkn, hk⟩ := NodeMap.ne_and_get?_of_erase hk
    rw [List.map_append, List.mem_append, not_or]
    exact ⟨W.not_mem_log k j' hk, by simpa using hkn⟩
  · exact W.jobs k j' (NodeMap.ne_and_get?_of_erase hk).2
  · rcases List.mem_append.1 hy with hy | hy
    · exact W.explained y hy
    · cases List.mem_singleton.1 hy
      exact ⟨r, W.jobs n _ hj⟩
  · rcases List.mem_append.1 hmem with hmem | hmem
    · exact W.frontier_not_mem index names hmem
    · exact LogEntry.frontier_not_mem_report index names hmem

theorem run (turns : List Turn) (W : Working crew g ns s p) :
    Working crew g ns s (crew.run turns p) :=
  Crew.run_induction advance handle turns W

end Working

/-! ## The cancel flag -/

/-- Every cancelled execution of a log comes behind a failure, unless the flag was set from the
start. -/
def Warned (failFast c : Bool) (log : List LogEntry) : Prop :=
  ∀ before x after, log = before ++ x :: after → x.ending = .cancelled →
    flagAfter failFast c before = true

namespace Warned

variable {failFast : Bool} {xs ys : List LogEntry} {x : LogEntry}

theorem nil : Warned failFast c [] := by
  intro before x after h
  simp at h

theorem append (W : Warned failFast c xs) (W' : Warned failFast (flagAfter failFast c xs) ys) :
    Warned failFast c (xs ++ ys) := by
  intro before x after hlog hx
  rcases List.append_eq_append_iff.1 hlog with ⟨middle, rfl, hys⟩ | ⟨middle, hxs, hafter⟩
  · rw [flagAfter_append]
    exact W' middle x after hys hx
  · cases middle with
    | nil =>
      rw [List.append_nil] at hxs
      have hflag := W' [] x after hafter.symm hx
      rwa [flagAfter_nil, hxs] at hflag
    | cons y middle =>
      obtain ⟨rfl, -⟩ := List.cons.inj hafter
      exact W before x middle hxs hx

theorem concat (W : Warned failFast c xs)
    (hx : x.ending = .cancelled → flagAfter failFast c xs = true) :
    Warned failFast c (xs ++ [x]) := by
  refine W.append fun before y after hy hc => ?_
  obtain ⟨rfl, ⟨rfl, rfl⟩⟩ := by simpa [List.singleton_eq_append_iff] using hy
  rw [flagAfter_nil]
  exact hx hc

end Warned

/-- The cancel flag is set by the failures that were handled, and no recipe is cancelled before. -/
structure Flagged (crew : Crew σ) (c : Bool) (p : Pool σ) : Prop where
  cancelled : p.cancelled = flagAfter crew.failFast c p.log
  jobs : ∀ n j, p.jobs.get? n = some j → j.stage = .ended .cancelled → p.cancelled = true
  warned : Warned crew.failFast c p.log

namespace Flagged

theorem advance (n : Int) (p : Pool σ) (F : Flagged crew c p) :
    Flagged crew c (crew.advance n p) := by
  obtain hid | ⟨j, hj⟩ := crew.advance_cases n p
  · rwa [hid]
  rw [Crew.advance_eq hj]
  refine ⟨F.cancelled, fun k j' hk hc => ?_, F.warned⟩
  dsimp only at hk
  rw [NodeMap.get?_set] at hk
  split at hk
  · cases hk
    rcases (Stage.moves_step ..).of_cancelled hc with hc | hc
    · exact F.jobs n j hj hc
    · exact hc
  · exact F.jobs k j' hk hc

theorem handle (n : Int) (p : Pool σ) (F : Flagged crew c p) :
    Flagged crew c (crew.handle n p) := by
  obtain hid | ⟨r, e, told, hf, hj⟩ := crew.handle_cases n p
  · rwa [hid]
  rw [Crew.handle_eq hf hj]
  refine ⟨?_, fun k j' hk hc => ?_, F.warned.concat ?_⟩
  · rw [flagAfter_concat, ← F.cancelled]
  · dsimp only
    rw [F.jobs k j' (NodeMap.ne_and_get?_of_erase hk).2 hc, Bool.true_or]
  · rintro rfl
    rw [← F.cancelled]
    exact F.jobs n _ hj rfl

theorem run (turns : List Turn) (F : Flagged crew c p) : Flagged crew c (crew.run turns p) :=
  Crew.run_induction advance handle turns F

end Flagged

/-! ## All results are handled -/

theorem Pool.fault?_eq_none_iff : p.fault? = none ↔ ∀ x ∈ p.log, ¬x.Aborted := by
  simp only [fault?, List.findSome?_eq_none_iff, LogEntry.fault?_eq_none_iff]

theorem Pool.exists_of_fault?_eq_some {fault : Fault} (hf : p.fault? = some fault) :
    ∃ x ∈ p.log, x.ending = .aborted fault := by
  obtain ⟨x, hx, hfault⟩ := List.exists_of_findSome?_eq_some hf
  exact ⟨x, hx, LogEntry.fault?_eq_some_iff.1 hfault⟩

/-- From `p` to `p'` results were handled and no recipe was added. -/
structure Later (p p' : Pool σ) : Prop where
  log : p.log <+: p'.log
  jobs : ∀ k, p.jobs.get? k = none → p'.jobs.get? k = none

namespace Later

theorem refl (p : Pool σ) : Later p p := ⟨List.prefix_refl _, fun _ h => h⟩

theorem trans {p'' : Pool σ} (L : Later p p') (L' : Later p' p'') : Later p p'' :=
  ⟨L.log.trans L'.log, fun k hk => L'.jobs k (L.jobs k hk)⟩

/-- A fault does not go away. -/
theorem fault?_eq_none (L : Later p p') (hf : p'.fault? = none) : p.fault? = none :=
  Pool.fault?_eq_none_iff.2 fun x hx => Pool.fault?_eq_none_iff.1 hf x (L.log.subset hx)

theorem advance (n : Int) (p' : Pool σ) (L : Later p p') : Later p (crew.advance n p') := by
  obtain hid | ⟨j, hj⟩ := crew.advance_cases n p'
  · rwa [hid]
  rw [Crew.advance_eq hj]
  refine ⟨L.log, fun k hk => ?_⟩
  have hkn : k ≠ n := by
    rintro rfl
    cases (L.jobs k hk).symm.trans hj
  exact (NodeMap.get?_set_of_ne hkn).trans (L.jobs k hk)

theorem handle (n : Int) (p' : Pool σ) (L : Later p p') : Later p (crew.handle n p') := by
  obtain hid | ⟨r, e, told, hf, hj⟩ := crew.handle_cases n p'
  · rwa [hid]
  rw [Crew.handle_eq hf hj]
  refine ⟨L.log.trans (List.prefix_append ..), fun k hk => ?_⟩
  rw [NodeMap.get?_erase, L.jobs k hk, ite_self]

theorem settle : Later p (crew.settle p n) :=
  Crew.settle_induction advance handle (.refl p)

end Later

namespace Crew

/-- Many steps of one recipe do what they do without the pool. -/
theorem advanceBy_eq (hj : p.jobs.get? n = some j) (k : Nat) :
    crew.advanceBy n k p =
      let x := Stage.steps crew.host crew.setting j.recipe p.cancelled k j.stage p.host
      { p with
        jobs := p.jobs.set n ⟨j.recipe, x.stage, j.told ++ x.events⟩
        host := x.host
        journal := p.journal ++ x.deeds.map (n, ·)
        events := p.events ++ x.events } := by
  induction k generalizing p j with
  | zero => simp [advanceBy, Stage.steps, NodeMap.set_eq_self hj]
  | succ k ih =>
    rw [advanceBy, advance_eq hj, ih (NodeMap.get?_set_self), Stage.steps]
    simp only [NodeMap.set_set, List.append_assoc, List.map_append]

/-- A recipe that is completed has ended. -/
theorem get?_complete (crew : Crew σ) (hj : p.jobs.get? n = some j) :
    ∃ e told, (crew.complete n p).jobs.get? n = some ⟨j.recipe, .ended e, told⟩ := by
  obtain ⟨e, he⟩ := Stage.exists_ended_steps crew.host crew.setting p.cancelled p.host
    (Nat.le_refl (j.stage.left j.recipe))
  rw [complete, hj]
  dsimp only
  rw [advanceBy_eq hj]
  exact ⟨e, _, by rw [NodeMap.get?_set_self, he]⟩

theorem fault?_complete : (crew.complete n p).fault? = p.fault? :=
  complete_induction (P := fun p' => p'.fault? = p.fault?) (fun n p' h => by
    obtain hid | ⟨j, hj⟩ := crew.advance_cases n p'
    · rwa [hid]
    · rw [advance_eq hj]
      exact h) rfl

/-- A recipe that is settled is out of the pool, unless there was a fault before. -/
theorem get?_settle (hf : p.fault? = none) : (crew.settle p n).jobs.get? n = none := by
  cases hj : p.jobs.get? n with
  | none => exact Later.settle.jobs n hj
  | some j =>
    obtain ⟨e, told, hcomplete⟩ := get?_complete crew hj
    rw [settle, hf]
    dsimp only
    rw [handle_eq (fault?_complete.trans hf) hcomplete, NodeMap.get?_erase, if_pos rfl]

theorem get?_foldl_settle (crew : Crew σ) (ns : List Int) (p : Pool σ) :
    Later p (ns.foldl crew.settle p) ∧ ((ns.foldl crew.settle p).fault? = none →
      ∀ n ∈ ns, (ns.foldl crew.settle p).jobs.get? n = none) := by
  induction ns generalizing p with
  | nil => exact ⟨.refl p, by simp⟩
  | cons n ns ih =>
    obtain ⟨hlater, hrest⟩ := ih (crew.settle p n)
    refine ⟨Later.settle.trans hlater, fun hf => List.forall_mem_cons.2 ⟨?_, hrest hf⟩⟩
    have hp := Later.settle.fault?_eq_none (hlater.fault?_eq_none hf)
    exact hlater.jobs n (get?_settle hp)

/-- A run without a fault handles all results. -/
theorem get?_run (hf : (crew.run turns p).fault? = none) (n : Int) :
    (crew.run turns p).jobs.get? n = none := by
  obtain ⟨hlater, hsettled⟩ :=
    get?_foldl_settle crew (turns.foldl crew.take p).jobs.keys (turns.foldl crew.take p)
  by_cases hn : n ∈ (turns.foldl crew.take p).jobs.keys
  · exact hsettled hf n hn
  · rw [NodeMap.mem_keys, Option.not_isSome_iff_eq_none] at hn
    exact hlater.jobs n hn

end Crew

end Haybuild
