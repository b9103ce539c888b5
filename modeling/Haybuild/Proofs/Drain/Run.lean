import Haybuild.Proofs.Drain.Progress
import Haybuild.Proofs.Graph.Label

/-!
# Runs on a host

A run that starts has its crew drain the graph (`Starts.run_eq`), so that what `drain_ends` says
about crews holds for it. The rest of the module reads off the results of a run what became of a
node, in a graph where no two nodes share a label.
-/

namespace Haybuild

variable {σ : Type}

namespace Graph

/-- A run starts: the variables can be derived, and there is a worker. The first round finds the
host in state `s'`. -/
structure Starts (h : Host σ) (vars : Variables) (o : Options) (s : σ) (environment : Environment)
    (s' : σ) : Prop where
  derived : h.derive vars.resolved s = (.ok (.ok environment), s')
  workers : o.workers.any (· ≤ 0) = false

variable {g : Graph} {h : Host σ} {vars : Variables} {o : Options} {s s' : σ}
  {environment : Environment}

theorem Starts.run_eq (S : Starts h vars o s environment s') :
    g.run h vars o s = g.drain (g.crew h vars environment o) s' := by
  rw [run, S.derived]
  simp only [S.workers, Bool.false_eq_true, if_false]

/-- A run starts, or it ends with what kept it from starting. -/
theorem run_cases (g : Graph) (h : Host σ) (vars : Variables) (o : Options) (s : σ) :
    (∃ environment s', Starts h vars o s environment s') ∨
      (∃ fault, (g.run h vars o s).1 = some (.fault fault)) ∨
      ∃ e, (g.run h vars o s).1 = some (.error (.derivation e)) := by
  rw [run]
  cases hd : h.derive vars.resolved s with
  | mk out s' =>
    rcases out with fault | e | environment
    · exact .inr (.inl ⟨fault, rfl⟩)
    · exact .inr (.inr ⟨e, rfl⟩)
    · by_cases hw : o.workers.any (· ≤ 0)
      · simp only [hw]
        exact .inr (.inl ⟨_, rfl⟩)
      · exact .inl ⟨environment, s', hd, Bool.eq_false_iff.2 hw⟩

end Graph

/-- While a run makes progress, every execution goes through that does not fail. -/
theorem Drain.Progress.completed {g : Graph} {crew : Crew σ} {s : σ} {rs : List (List LogEntry)}
    {d : Drain σ} {x : LogEntry} (P : Progress g crew s rs d) (hx : x ∈ rs.flatten)
    (hf : ¬x.Failed) : x.Completed :=
  P.history.completed (List.append_nil _).symm P.alive hx hf

/-- The result of a node. -/
def Graph.status? (g : Graph) (m : NameMap Status) (n : Int) : Option Status :=
  m.get? (Graph.labelOf g.labels n)

namespace Drain

/-- The results of a run account for every node: it was executed once, or it satisfies `p` and is
reported as skipped; and no two nodes share a label. -/
structure Accounts (g : Graph) (log : List LogEntry) (p : Int → Prop) (m : NameMap Status) :
    Prop where
  distinct : (g.labels.map Prod.snd).Nodup
  reported : Reported (Graph.labelOf g.labels) log p m
  nodup : (log.map LogEntry.node).Nodup
  contains : ∀ x ∈ log, g.contains x.node
  skipped : ∀ n, p n → g.contains n ∧ n ∉ log.map LogEntry.node
  complete : ∀ n, g.contains n → p n ∨ n ∈ log.map LogEntry.node

namespace Accounts

variable {g : Graph} {log : List LogEntry} {p : Int → Prop} {m : NameMap Status}
  {x : LogEntry} {n : Int}

theorem status?_executed (A : Accounts g log p m) (hx : x ∈ log) :
    g.status? m x.node = x.status? := by
  obtain ⟨st, hst⟩ := Option.isSome_iff_exists.1 (A.reported.executed x hx)
  refine Eq.trans hst ?_
  rcases A.reported.get? _ st hst with ⟨y, hy, hlabel, hstatus⟩ | ⟨-, n, hn, hlabel⟩
  · have hyx := Graph.labelOf_injective A.distinct (A.contains y hy) (A.contains x hx) hlabel
    rw [← List.inj_on_of_nodup_map A.nodup hy hx hyx, hstatus]
  · obtain ⟨hn, hnot⟩ := A.skipped n hn
    have hnx := Graph.labelOf_injective A.distinct hn (A.contains x hx) hlabel
    exact absurd (hnx ▸ List.mem_map_of_mem hx) hnot

theorem status?_skipped (A : Accounts g log p m) (hn : p n) :
    g.status? m n = some .skipped := by
  obtain ⟨st, hst⟩ := Option.isSome_iff_exists.1 (A.reported.skipped n hn)
  refine Eq.trans hst ?_
  obtain ⟨hc, hnot⟩ := A.skipped n hn
  rcases A.reported.get? _ st hst with ⟨y, hy, hlabel, -⟩ | ⟨rfl, -⟩
  · have hyn := Graph.labelOf_injective A.distinct (A.contains y hy) hc hlabel
    exact absurd (hyn ▸ List.mem_map_of_mem hy) hnot
  · rfl

theorem failed_iff (A : Accounts g log p m) (hn : g.contains n) :
    g.status? m n = some .failed ↔ FailedIn log n := by
  constructor
  · intro h
    rcases A.complete n hn with hskip | hmem
    · rw [A.status?_skipped hskip] at h
      cases h
    · obtain ⟨x, hx, rfl⟩ := List.mem_map.1 hmem
      exact ⟨x, hx, rfl, (A.status?_executed hx).symm.trans h⟩
  · rintro ⟨x, hx, rfl, hfailed⟩
    exact (A.status?_executed hx).trans hfailed

theorem skipped_iff (A : Accounts g log p m) (hn : g.contains n) :
    g.status? m n = some .skipped ↔ p n := by
  refine ⟨fun h => ?_, A.status?_skipped⟩
  refine (A.complete n hn).resolve_right fun hmem => ?_
  obtain ⟨x, hx, rfl⟩ := List.mem_map.1 hmem
  rw [A.status?_executed hx, LogEntry.status?] at h
  cases he : x.ending <;> simp [he, Ending.status?] at h

/-- The results are for exactly the labels of the graph. -/
theorem names_perm (A : Accounts g log p m) : m.names.Perm (g.labels.map Prod.snd) := by
  refine (List.perm_ext_iff_of_nodup m.nodup_names A.distinct).2 fun t => ?_
  rw [NameMap.mem_names, Graph.mem_snd_labels]
  constructor
  · intro h
    obtain ⟨st, hst⟩ := Option.isSome_iff_exists.1 h
    rcases A.reported.get? t st hst with ⟨x, hx, hlabel, -⟩ | ⟨-, n, hn, hlabel⟩
    · exact ⟨x.node, A.contains x hx, hlabel⟩
    · exact ⟨n, (A.skipped n hn).1, hlabel⟩
  · rintro ⟨n, hn, rfl⟩
    rcases A.complete n hn with hskip | hmem
    · exact A.reported.skipped n hskip
    · obtain ⟨x, hx, rfl⟩ := List.mem_map.1 hmem
      exact A.reported.executed x hx

end Accounts

end Drain

/-! ## A run on a host without files -/

namespace Graph
open Drain

variable {g : Graph} (code : Text → Int) {vars : Variables} {o : Options} {s s' : Unit}

theorem starts_answering (hw : o.workers = none) :
    Starts (.answering code) .empty o () [] () :=
  ⟨rfl, by simp [hw]⟩

/-- On a host that answers at once no execution of plain commands is aborted, and none fails if
every command ends well. -/
theorem not_aborted_answering (H : g.Valid) (hs : Starts (.answering code) vars o s [] s')
    (hshell : o.shell = standardShell)
    (hg : ∀ e ∈ g.recipes.entries, ∀ c ∈ e.2.commands, '$' ∉ c.text ∧ '\x00' ∉ c.text) :
    ∀ x ∈ (g.run (.answering code) vars o s).2.log, ¬x.Aborted ∧
      ((∀ e ∈ g.recipes.entries, ∀ c ∈ e.2.commands, code c.text = 0) → ¬x.Failed) := by
  intro x hx
  obtain ⟨halt, d, hrun, E⟩ := drain_ends H (g.crew (.answering code) vars [] o) s'
  rw [hs.run_eq, hrun] at hx
  obtain ⟨r, hr, R⟩ := E.recorded.explained x hx
  have hmem := NodeMap.get?_eq_some_iff.1 hr
  have hdeeds := E.recorded.follows.holds_of_mem_deedsOf (n := x.node)
  have hplain := LeadsTo.answering code vars (hg _ hmem) R
    fun deed hdeed => by simpa only [crew, hshell] using hdeeds deed hdeed
  rw [LogEntry.aborted_iff, LogEntry.failed_iff]
  exact ⟨fun ⟨fault, h⟩ => hplain.1 fault h, fun hcode ⟨e, h⟩ => hplain.2 (hcode _ hmem) e h⟩

end Graph

end Haybuild
