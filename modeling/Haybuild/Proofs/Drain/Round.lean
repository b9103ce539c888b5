import Haybuild.Proofs.Drain.InTurn
import Haybuild.Proofs.Drain.Remove

/-!
# Running a frontier

A round puts the recipes of a frontier into a pool and runs it (`Drain.rounds_succ`). `Frontier` is
what a pool is after such a run, whatever turns it was given. `Reported` is what the results of a
run say about its executions.
-/

namespace Haybuild

variable {σ : Type} {crew : Crew σ} {g : Graph} {ns : List Int} {c : Bool} {s : σ} {p : Pool σ}

namespace Drain

/-! ## The pool of a round -/

/-- The recipes of nodes that a graph holds can be put into a pool. -/
theorem enlist_spec (ns : List Int) (jobs : NodeMap Job) (h : ∀ n ∈ ns, g.contains n) :
    ∃ jobs', enlist g ns jobs = .ok jobs' ∧ ∀ k, jobs'.get? k =
      if k ∈ ns then (g.recipe? k).map fun r => { recipe := r } else jobs.get? k := by
  induction ns generalizing jobs with
  | nil => exact ⟨jobs, rfl, by simp⟩
  | cons n ns ih =>
    obtain ⟨r, hr⟩ := Graph.exists_recipe (h n List.mem_cons_self)
    obtain ⟨jobs', hrun, hget⟩ := ih (jobs.set n { recipe := r }) fun m hm =>
      h m (List.mem_cons_of_mem _ hm)
    refine ⟨jobs', by rw [enlist, hr]; exact hrun, fun k => ?_⟩
    rw [hget, NodeMap.get?_set]
    by_cases hk : k = n
    · simp [hk, hr]
    · simp [hk]

end Drain

/-- A pool after it was run with the recipes of nodes `ns`, from the cancel flag `c` and state `s`
of the host on. -/
structure Frontier (crew : Crew σ) (g : Graph) (ns : List Int) (c : Bool) (s : σ) (p : Pool σ) :
    Prop where
  working : Working crew g ns s p
  flagged : Flagged crew c p
  handled : p.fault? = none → ∀ n, n ∈ p.log.map LogEntry.node ↔ n ∈ ns
  executes : crew.host.InTurn → Executes g crew c s p.log p.host
  ordered : crew.host.InTurn → p.log.map LogEntry.node <+: ns
  events : crew.host.InTurn → p.events = p.log.flatMap fun x => x.told (crew.label x.node)

/-- Whatever turns a pool is given with the recipes of nodes, they are run. -/
theorem Crew.run_enlisted (crew : Crew σ) (hns : ns.Pairwise (· < ·))
    (h : ∀ n ∈ ns, g.contains n) : ∃ jobs, Drain.enlist g ns .empty = .ok jobs ∧
      ∀ round c s, Frontier crew g ns c s
        (crew.run (crew.host.schedule round) ⟨jobs, c, s, [], [], []⟩) := by
  obtain ⟨jobs, hrun, hget⟩ := Drain.enlist_spec ns .empty h
  refine ⟨jobs, hrun, fun round c s => ?_⟩
  have hjob : ∀ n j, jobs.get? n = some j →
      n ∈ ns ∧ ∃ r, g.recipe? n = some r ∧ j = { recipe := r } := by
    intro n j hj
    rw [hget] at hj
    split at hj
    · next hn =>
      obtain ⟨r, hr, rfl⟩ := Option.map_eq_some_iff.1 hj
      exact ⟨hn, r, hr, rfl⟩
    · simp at hj
  have hqueued : ∀ n ∈ ns, ∃ r, g.recipe? n = some r ∧ jobs.get? n = some { recipe := r } := by
    intro n hn
    obtain ⟨r, hr⟩ := Graph.exists_recipe (h n hn)
    exact ⟨r, hr, by rw [hget, if_pos hn, hr]; rfl⟩
  have hkeys : jobs.keys = ns := jobs.keys_ascending.eq_of_mem_iff hns fun n => by
    rw [NodeMap.mem_keys]
    constructor
    · intro hn
      obtain ⟨j, hj⟩ := Option.isSome_iff_exists.1 hn
      exact (hjob n j hj).1
    · intro hn
      obtain ⟨r, -, hj⟩ := hqueued n hn
      rw [hj]
      rfl
  have W : Working crew g ns s ⟨jobs, c, s, [], [], []⟩ := by
    refine ⟨fun n => ?_, by simp, by simp, fun n j hj => ?_, by simp, by simp, .nil, by simp⟩
    · rw [← hkeys, NodeMap.mem_keys]
      simp
    · obtain ⟨-, r, hr, rfl⟩ := hjob n j hj
      exact ⟨hr, .queued⟩
  have F : Flagged crew c ⟨jobs, c, s, [], [], []⟩ := by
    refine ⟨by simp, fun n j hj hc => ?_, fun before x after hlog => ?_⟩
    · obtain ⟨-, r, -, rfl⟩ := hjob n j hj
      cases hc
    · simp at hlog
  have hrest : crew.host.InTurn → ∃ xs, Executes g crew c s xs
      (crew.run (crew.host.schedule round) ⟨jobs, c, s, [], [], []⟩).host ∧
      (crew.run (crew.host.schedule round) ⟨jobs, c, s, [], [], []⟩).log = [] ++ xs ∧
      xs.map LogEntry.node <+: ns ∧
      (crew.run (crew.host.schedule round) ⟨jobs, c, s, [], [], []⟩).events =
        [] ++ xs.flatMap fun x => x.told (crew.label x.node) := by
    intro hturn
    rw [hturn]
    exact Crew.run_nil (p := ⟨jobs, c, s, [], [], []⟩) hkeys rfl hqueued
  refine ⟨W.run _, F.run _, fun hf n => ?_, fun hturn => ?_, fun hturn => ?_, fun hturn => ?_⟩
  · rw [(W.run _).mem_iff, Crew.get?_run hf]
    simp
  all_goals
    obtain ⟨xs, hexec, hlog, hnodes, hevents⟩ := hrest hturn
    rw [List.nil_append] at hlog hevents
    rw [hlog]
    assumption

namespace Drain

variable {label : Int → Text} {d : Drain σ} {n : Int}

/-! ## Results -/

/-- What the results of a run say: each comes from an execution, or is `skipped` and belongs to a
node that satisfies `p`; and none of these nodes is left out. -/
structure Reported (label : Int → Text) (log : List LogEntry) (p : Int → Prop)
    (m : NameMap Status) : Prop where
  get? : ∀ t st, m.get? t = some st →
    (∃ x ∈ log, label x.node = t ∧ x.status? = some st) ∨
      st = .skipped ∧ ∃ n, p n ∧ label n = t
  executed : ∀ x ∈ log, (m.get? (label x.node)).isSome
  skipped : ∀ n, p n → (m.get? (label n)).isSome

namespace Reported

variable {log xs : List LogEntry} {p q r : Int → Prop} {m m' : NameMap Status} {x : LogEntry}

theorem empty : Reported label [] (fun _ => False) .empty :=
  ⟨fun _ _ h => by simp at h, by simp, fun _ h => h.elim⟩

theorem set {st : Status} (R : Reported label log p m) (hx : x.status? = some st) :
    Reported label (log ++ [x]) p (m.set (label x.node) st) where
  get? t st' h := by
    rw [NameMap.get?_set] at h
    split at h
    · next ht =>
      cases h
      exact .inl ⟨x, by simp, ht.symm, hx⟩
    · rcases R.get? t st' h with ⟨y, hy, hyt⟩ | hskip
      · exact .inl ⟨y, List.mem_append_left _ hy, hyt⟩
      · exact .inr hskip
  executed y hy := by
    rw [NameMap.get?_set]
    split
    · rfl
    · next hne =>
      rcases List.mem_append.1 hy with hy | hy
      · exact R.executed y hy
      · cases List.mem_singleton.1 hy
        exact absurd rfl hne
  skipped n hn := by
    rw [NameMap.get?_set]
    split
    · rfl
    · exact R.skipped n hn

/-- Filling in results reports the nodes `q` as skipped, save those that were executed. -/
theorem fills (R : Reported label log p m) (F : Fills label q m m')
    (hr : ∀ n, r n → p n ∨ q n) (hp : ∀ n, p n → r n)
    (hq : ∀ n, q n → r n ∨ ∃ x ∈ log, x.node = n) : Reported label log r m' where
  get? t st h := by
    rcases F.get? t with heq | ⟨hnone, hskip, n, hn, ht⟩
    · rcases R.get? t st (heq ▸ h) with hx | ⟨hst, n, hn, ht⟩
      · exact .inl hx
      · exact .inr ⟨hst, n, hp n hn, ht⟩
    · rcases hq n hn with hrn | ⟨x, hx, rfl⟩
      · exact .inr ⟨Option.some.inj (h.symm.trans hskip), n, hrn, ht⟩
      · simpa [ht, hnone] using R.executed x hx
  executed x hx := by
    rw [F.get?_of_isSome (R.executed x hx)]
    exact R.executed x hx
  skipped n hn := by
    rcases hr n hn with hn | hn
    · rw [F.get?_of_isSome (R.skipped n hn)]
      exact R.skipped n hn
    · exact F.isSome n hn

theorem reportAll (R : Reported label log p m) (h : ∀ x ∈ xs, ¬x.Aborted) :
    Reported label (log ++ xs) p (reportAll label m xs) := by
  induction xs generalizing m log with
  | nil => simpa [Drain.reportAll] using R
  | cons x xs ih =>
    obtain ⟨st, hst⟩ := Option.ne_none_iff_exists'.1 (h x List.mem_cons_self)
    rw [List.append_cons, Drain.reportAll, List.foldl_cons, hst]
    exact ih (R.set hst) fun y hy => h y (List.mem_cons_of_mem _ hy)

end Reported

/-! ## Rounds -/

/-- A round starts: its frontier is told. -/
def announce (d : Drain σ) (round : Nat) : Drain σ :=
  d.tell [.frontier round (d.graph.frontier.map d.graph.nameOf)]

/-- A round runs its frontier in a pool. -/
theorem rounds_succ (crew : Crew σ) (H : d.graph.Valid) (hsize : d.graph.size ≠ 0)
    (hne : d.graph.frontier ≠ []) (round : Nat) :
    ∃ p, Frontier crew d.graph d.graph.frontier d.cancelled d.host p ∧
      ∀ bound, rounds crew (bound + 1) round d =
        match p.fault? with
        | some fault => (some (.fault fault), (d.announce round).collect crew.label p)
        | none =>
          match removeAll (d.graph.frontier.filter fun n => !p.failed.contains n)
            ((d.announce round).collect crew.label p) with
          | (some fault, d') => (some (.fault fault), d')
          | (none, d') =>
            if crew.failFast && !p.failed.isEmpty then (none, skipAll crew.label d')
            else
              match dropFailed crew.label p.failed d' with
              | (some fault, d') => (some (.fault fault), d')
              | (none, d') => rounds crew bound (round + 1) d' := by
  obtain ⟨jobs, henlist, hrun⟩ := crew.run_enlisted (g := d.graph) d.graph.frontier_ascending
    fun n hn => (H.mem_frontier.1 hn).1
  refine ⟨_, hrun round d.cancelled d.host, fun bound => ?_⟩
  rw [rounds, if_neg hsize]
  split
  · next h => exact absurd h hne
  · rw [henlist]
    rfl

end Drain

end Haybuild
