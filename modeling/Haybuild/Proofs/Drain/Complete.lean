import Haybuild.Proofs.Drain.FailFast

/-!
# Runs that carry everything out

A run of a graph without cycles ends with nothing but good results exactly when the journal carries
out the commands of every recipe: `run_ok_iff`. Every result stands for an execution or for a recipe
that was skipped (`Accounts.forall_ok_iff`), and every execution ended as its deeds say, so neither
a failure nor a recipe that never ran can hide behind a good result.
-/

namespace Haybuild

variable {σ : Type}

namespace Drain

variable {g : Graph} {crew : Crew σ} {s : σ} {log : List LogEntry} {p : Int → Prop}
  {m : NameMap Status} {halt : Option Halt} {d : Drain σ}

/-- All results are good if and only if no recipe was skipped and every execution went through. -/
theorem Accounts.forall_ok_iff (A : Accounts g log p m) :
    (∀ e ∈ m.entries, e.2 = .ok) ↔ (∀ n, ¬p n) ∧ ∀ x ∈ log, x.Completed := by
  constructor
  · intro hall
    have hok : ∀ n st, g.status? m n = some st → st = .ok := fun n st hst =>
      hall (_, st) (NameMap.get?_eq_some_iff.1 hst)
    refine ⟨fun n hn => ?_, fun x hx => ?_⟩
    · cases hok n _ (A.status?_skipped hn)
    · obtain ⟨st, hst⟩ := Option.isSome_iff_exists.1 (A.reported.executed x hx)
      obtain rfl := hok x.node st hst
      exact (A.status?_executed hx).symm.trans hst
  · rintro ⟨hskip, hall⟩ ⟨t, st⟩ he
    rcases A.reported.get? t st (NameMap.get?_eq_some_iff.2 he) with
      ⟨x, hx, -, hst⟩ | ⟨-, n, hn, -⟩
    · cases hst.symm.trans (hall x hx)
      rfl
    · exact absurd hn (hskip n)

/-- A run that comes to its end accounts for every node, and skips one only after a failure. -/
theorem Ends.accounts (E : Ends g crew s none d) (H : g.Valid)
    (hl : (g.labels.map Prod.snd).Nodup) (hlabel : crew.label = Graph.labelOf g.labels) :
    ∃ p, Accounts g d.log p d.results ∧ ∀ n, p n → ∃ x ∈ d.log, x.Failed := by
  cases E with
  | finished P hsize =>
    refine ⟨_, P.history.log ▸ P.accounts hlabel H hl hsize, ?_⟩
    rintro n ⟨-, f, -, x, hx, -, hf⟩
    exact ⟨x, P.history.log ▸ hx, hf⟩
  | stopped hff S =>
    refine ⟨_, S.history.log ▸ S.accounts H hl hlabel, fun _ _ => ?_⟩
    obtain ⟨x, hx, hf⟩ := S.failed
    refine ⟨x, ?_, hf⟩
    rw [S.history.log, List.flatten_concat]
    exact List.mem_append_right _ hx

/-- The journal carries out the commands of every recipe. -/
def AllCarriedOut (g : Graph) (journal : List (Int × Deed)) : Prop :=
  ∀ n r, g.recipe? n = some r → CarriedOut r.commands (deedsOf n journal)

/-- Where the journal carries out all commands every execution went through. -/
theorem AllCarriedOut.completed (C : AllCarriedOut g d.journal) (R : Recorded g crew s d)
    {x : LogEntry} (hx : x ∈ d.log) : x.Completed := by
  obtain ⟨r, hr, hreaches⟩ := R.explained x hx
  exact LogEntry.completed_iff.2 (hreaches.completed_iff.2 (C x.node r hr))

/-- A run of a graph without cycles ends well if and only if its journal carries everything out. -/
theorem Ends.ok_iff (E : Ends g crew s halt d) (H : g.Valid) (ha : g.Acyclic)
    (hl : (g.labels.map Prod.snd).Nodup) (hlabel : crew.label = Graph.labelOf g.labels) :
    (halt = none ∧ ∀ e ∈ d.results.entries, e.2 = .ok) ↔ AllCarriedOut g d.journal := by
  constructor
  · rintro ⟨rfl, hall⟩ n r hr
    obtain ⟨p, A, -⟩ := E.accounts H hl hlabel
    obtain ⟨hskip, hok⟩ := A.forall_ok_iff.1 hall
    have hn := Graph.contains_of_recipe? hr
    obtain ⟨x, hx, rfl⟩ := List.mem_map.1 ((A.complete n hn).resolve_left (hskip n))
    obtain ⟨r', hr', hreaches⟩ := E.recorded.explained x hx
    cases hr.symm.trans hr'
    exact hreaches.completed_iff.1 (LogEntry.completed_iff.1 (hok x hx))
  · intro C
    have hok : ∀ x ∈ d.log, x.Completed := fun x hx => C.completed E.recorded hx
    obtain rfl : halt = none := by
      have hne := E.ne_error H ha
      cases E with
      | finished | stopped => rfl
      | stuck => exact absurd rfl (hne _)
      | aborted _ hx hfault => cases hfault.symm.trans (LogEntry.completed_iff.1 (hok _ hx))
    obtain ⟨p, A, hskip⟩ := E.accounts H hl hlabel
    refine ⟨rfl, A.forall_ok_iff.2 ⟨fun n hn => ?_, hok⟩⟩
    obtain ⟨x, hx, hf⟩ := hskip n hn
    cases (hok x hx).symm.trans hf

end Drain

namespace Graph
open Drain

variable {g : Graph} {h : Host σ} {vars : Variables} {o : Options} {s s' : σ}
  {environment : Environment}

/-- A run carries the graph out: the environment of its commands is derived, and from then on the
journal is what the host did and carries out the commands of every recipe. -/
def CarriesOut (g : Graph) (h : Host σ) (vars : Variables) (o : Options) (s : σ) : Prop :=
  ∃ environment s', h.derive vars.resolved s = (.ok (.ok environment), s') ∧
    Recorded g (g.crew h vars environment o) s' (g.run h vars o s).2 ∧
    AllCarriedOut g (g.run h vars o s).2.journal

/-- A run ends with good results only if and only if it carries the graph out. -/
theorem run_ok_iff (H : g.Valid) (ha : g.Acyclic) (hl : (g.labels.map Prod.snd).Nodup)
    (hw : o.workers.any (· ≤ 0) = false) :
    ((g.run h vars o s).1 = none ∧ ∀ e ∈ (g.run h vars o s).2.results.entries, e.2 = .ok) ↔
      g.CarriesOut h vars o s := by
  rcases hd : h.derive vars.resolved s with ⟨fault | e | environment, s'⟩
  case ok.ok =>
    have S : Starts h vars o s environment s' := ⟨hd, hw⟩
    obtain ⟨halt, d, hrun, E⟩ := drain_ends H (g.crew h vars environment o) s'
    rw [CarriesOut, S.run_eq, hrun, E.ok_iff H ha hl rfl]
    refine ⟨fun C => ⟨environment, s', hd, E.recorded, C⟩, ?_⟩
    rintro ⟨-, -, -, -, C⟩
    exact C
  all_goals
    refine iff_of_false ?_ ?_
    · rw [run, hd]
      rintro ⟨⟨⟩, -⟩
    · rintro ⟨_, _, hok, -, -⟩
      cases hd.symm.trans hok

end Graph

end Haybuild
