import Haybuild.Proofs.Drain.KeepGoing

/-!
# Runs that fail fast

A run that fails fast goes through the levels of its graph up to the one with the first failure.
What becomes of the rest of that level is a matter of schedule: the cancel flag is set when the
failure is handled, and until then the other recipes go on. Where recipes run in turn, no command
starts any more after the failure. `run_failFast_exact` gives every node its status, for all
schedules and for this one; `run_failFast_late` shows a recipe that runs to its end after a failure.
-/

namespace Haybuild
open Relation

variable {σ : Type}

namespace Drain

namespace Stopped

variable {g : Graph} {crew : Crew σ} {s : σ} {rs : List (List LogEntry)} {xs : List LogEntry}
  {d : Drain σ} {n : Int}

theorem isRound_last (S : Stopped g crew s rs xs d) :
    IsRound g (rs ++ [xs]).flatten rs.length xs := by
  simpa using S.history.rounds rs.length (by simp)

/-- The failures of the last round cost none of its nodes, and none before it. -/
theorem not_lost (S : Stopped g crew s rs xs d) (H : g.Valid)
    (hn : g.doneBy (rs.length + 1) n) : ¬Lost g (rs ++ [xs]).flatten n := by
  refine not_lost_of_doneBy H hn fun x hx hf => ?_
  rw [List.flatten_concat, List.mem_append] at hx
  have hx := hx.resolve_left fun hx => S.alive x hx hf
  exact ((S.isRound_last.mem_iff _).1 (List.mem_map_of_mem hx)).1.2

/-- The rounds of the run execute the levels in order, the last of them the one with the failure. -/
theorem map_roundNodes (S : Stopped g crew s rs xs d) (H : g.Valid) :
    (rs ++ [xs]).map (roundNodes g) = (List.range (rs.length + 1)).map g.level := by
  have := S.history.map_roundNodes H fun i n hi hn => ?_
  · rwa [List.length_append] at this
  · rw [List.length_append] at hi
    exact S.not_lost H (H.doneBy_mono hi hn.1)

theorem mem_map_node (S : Stopped g crew s rs xs d) (H : g.Valid) :
    n ∈ (rs ++ [xs]).flatten.map LogEntry.node ↔ g.doneBy (rs.length + 1) n := by
  rw [S.history.mem_map_node H, List.length_append]
  exact and_iff_left_of_imp (S.not_lost H)

theorem mem_last (S : Stopped g crew s rs xs d) (H : g.Valid) :
    n ∈ xs.map LogEntry.node ↔ g.OnLevel rs.length n := by
  rw [S.isRound_last.mem_iff]
  exact and_iff_left_of_imp fun hn => S.not_lost H hn.1

/-- Before the last round every execution goes through. -/
theorem completed (S : Stopped g crew s rs xs d) {x : LogEntry} (hx : x ∈ rs.flatten) :
    x.Completed :=
  S.history.completed List.flatten_concat (fun _ => S.alive) hx (S.alive x hx)

section
variable (S : Stopped g crew s rs xs d) (H : g.Valid) (hl : (g.labels.map Prod.snd).Nodup)
  (hlabel : crew.label = Graph.labelOf g.labels)
include S H hl hlabel

/-- A run that stopped accounts for every node. -/
theorem accounts :
    Accounts g (rs ++ [xs]).flatten (fun n => d.graph.contains n ∧ n ∉ xs.map LogEntry.node)
      d.results where
  distinct := hl
  reported := hlabel ▸ S.history.results
  nodup := S.history.nodup H
  contains x hx := H.contains_of_doneBy ((S.mem_map_node H).1 (List.mem_map_of_mem hx))
  skipped n hn := by
    obtain ⟨hc, hdone, -⟩ := S.part.contains_iff.1 hn.1
    exact ⟨hc, fun h => hn.2 ((S.mem_last H).2 ⟨(S.mem_map_node H).1 h, hdone⟩)⟩
  complete n hn := by
    rw [S.mem_map_node H, S.part.contains_iff, S.mem_last H]
    by_cases hsucc : g.doneBy (rs.length + 1) n
    · exact .inr hsucc
    · refine .inl ⟨⟨hn, fun h => hsucc (H.doneBy_succ_of_doneBy h), fun h => absurd h.1 hsucc⟩, ?_⟩
      exact fun h => hsucc h.1

/-- The nodes that are left are those that failed and those that were skipped. -/
theorem contains_iff :
    d.graph.contains n ↔ g.contains n ∧
      (g.status? d.results n = some .failed ∨ g.status? d.results n = some .skipped) := by
  have A := S.accounts H hl hlabel
  constructor
  · intro hd
    obtain ⟨hn, -, hfailed⟩ := S.part.contains_iff.1 hd
    refine ⟨hn, ?_⟩
    rw [A.failed_iff hn, A.skipped_iff hn, List.flatten_concat, failedIn_append]
    by_cases hmem : n ∈ xs.map LogEntry.node
    · exact .inl (.inr (hfailed hmem))
    · exact .inr ⟨hd, hmem⟩
  · rintro ⟨hn, h | h⟩
    · rw [A.failed_iff hn, List.flatten_concat, failedIn_append] at h
      have hf := h.resolve_left fun ⟨x, hx, _, hxf⟩ => S.alive x hx hxf
      exact S.part.contains_iff.2 ⟨hn, ((S.mem_last H).1 hf.mem_map).2, fun _ => hf⟩
    · exact ((A.skipped_iff hn).1 h).1

/-- A node of an earlier level went through. -/
theorem status?_of_lt {i : Nat} (hi : g.OnLevel i n) (hlt : i < rs.length) :
    g.status? d.results n = some .ok := by
  obtain ⟨x, hx, rfl⟩ := List.mem_map.1 ((S.mem_map_node H).2 (H.doneBy_mono (by omega) hi.1))
  have hrs : x ∈ rs.flatten := by
    rw [List.flatten_concat, List.mem_append] at hx
    refine hx.resolve_right fun hx => Nat.ne_of_lt hlt ?_
    exact H.onLevel_unique hi ((S.mem_last H).1 (List.mem_map_of_mem hx))
  rw [(S.accounts H hl hlabel).status?_executed hx]
  exact S.completed hrs

/-- A node of a later level is skipped, and was not executed. -/
theorem status?_of_gt {i : Nat} (hi : g.OnLevel i n) (hlt : rs.length < i) :
    g.status? d.results n = some .skipped ∧ n ∉ (rs ++ [xs]).flatten.map LogEntry.node := by
  have hn := H.contains_of_doneBy hi.1
  have hdone : ¬g.doneBy (rs.length + 1) n := fun h => hi.2 (H.doneBy_mono hlt h)
  have hlast : n ∉ xs.map LogEntry.node := fun h => hdone ((S.mem_last H).1 h).1
  have hleft : d.graph.contains n := S.part.contains_iff.2
    ⟨hn, fun h => hdone (H.doneBy_succ_of_doneBy h), fun h => absurd h hlast⟩
  exact ⟨(S.accounts H hl hlabel).status?_skipped ⟨hleft, hlast⟩, mt (S.mem_map_node H).1 hdone⟩

end

/-- The first failure of a run in turn: all before it goes through, the host stays as it left it,
and all after it is idle. -/
theorem exists_first (S : Stopped g crew s rs xs d) (hff : crew.failFast = true)
    (hturn : crew.host.InTurn) :
    ∃ us x vs, xs = us ++ x :: vs ∧ x.Failed ∧ (∀ y ∈ rs.flatten ++ us, y.Completed) ∧
      Executes g crew false s (rs.flatten ++ us ++ [x]) d.host ∧ ∀ y ∈ vs, Idle g y := by
  obtain ⟨x, hx⟩ : ∃ x, xs.find? (·.Failed) = some x := by
    rw [← Option.isSome_iff_exists, List.find?_isSome]
    simpa using S.failed
  obtain ⟨hf, us, vs, rfl, hus⟩ := List.find?_eq_some_iff_append.1 hx
  simp only [decide_eq_true_eq, Bool.not_eq_true', decide_eq_false_iff_not] at hf hus
  have hflat : (rs ++ [us ++ x :: vs]).flatten = rs.flatten ++ us ++ x :: vs := by simp
  have halive : ∀ y ∈ rs.flatten ++ us, ¬y.Failed := fun y hy =>
    (List.mem_append.1 hy).elim (S.alive y) (hus y)
  refine ⟨us, x, vs, rfl, hf, fun y hy => ?_, ?_⟩
  · exact S.history.completed hflat (fun _ => halive) hy (halive y hy)
  · have hexec := (S.history.inOrder hturn).executes
    rw [hflat, List.append_cons] at hexec
    obtain ⟨s₁, hbefore, hafter⟩ := hexec.of_append
    have hflag : flagAfter crew.failFast false (rs.flatten ++ us ++ [x]) = true :=
      flagAfter_iff.2 (.inr ⟨hff, x, by simp, hf⟩)
    rw [hflag] at hafter
    obtain ⟨hhost, hidle⟩ := hafter.cancelled
    exact ⟨hhost ▸ hbefore, hidle⟩

end Stopped

end Drain

namespace Graph
open Drain

/-- The recipe of the node has commands. -/
def hasCommands (g : Graph) (n : Int) : Bool :=
  (g.recipe? n).any fun r => !r.commands.isEmpty

/-- The status of node `n` when `f` is the one that fails: what comes before `f` by its level, and
within the level by its number, is done; the rest of the level is cancelled, unless it has no
commands, and the later levels are skipped. -/
def statusAfter (g : Graph) (levels : List (List Int)) (f n : Int) : Status :=
  if levelIn levels n < levelIn levels f then .ok
  else if levelIn levels f < levelIn levels n then .skipped
  else if n < f then .ok
  else if n = f then .failed
  else if g.hasCommands n then .cancelled
  else .ok

/-- A run stopped at a level: something failed on it, and each of its nodes was executed and has the
status of its execution, which is cancelled only if a failure was handled before. What is on an
earlier level went through, and what is on a later one was skipped and did nothing. -/
structure StopsAt (g : Graph) (levels : List (List Int)) (i : Nat) (d : Drain σ) : Prop where
  failed : ∃ f, g.contains f ∧ levelIn levels f = i ∧ g.status? d.results f = some .failed
  level : ∀ n, g.contains n → levelIn levels n = i →
    ∃ before x after, d.log = before ++ x :: after ∧ x.node = n ∧
      g.status? d.results n = x.status? ∧ (x.ending = .cancelled → ∃ y ∈ before, y.Failed)
  before : ∀ n, g.contains n → levelIn levels n < i → g.status? d.results n = some .ok
  after : ∀ n, g.contains n → i < levelIn levels n →
    g.status? d.results n = some .skipped ∧ n ∉ d.log.map LogEntry.node ∧
      deedsOf n d.journal = []

/-- A run in turn stopped behind the execution `x`, which is the one that fails: all before it went
through, every node has the status that its place gives it, and the host is as `x` left it, for no
command started any more. -/
structure StopsBehind (g : Graph) (crew : Crew σ) (levels : List (List Int)) (s : σ)
    (before : List LogEntry) (x : LogEntry) (after : List LogEntry) (d : Drain σ) : Prop where
  log : d.log = before ++ x :: after
  failed : x.Failed
  not_failed : ∀ y ∈ before, ¬y.Failed
  status : ∀ n, g.contains n → g.status? d.results n = some (g.statusAfter levels x.node n)
  executes : Executes g crew false s (before ++ [x]) d.host
  command_not_mem : ∀ y ∈ after, ∀ recipe cmd, .command recipe cmd ∉ y.events

variable {g : Graph} {h : Host σ} {vars : Variables} {o : Options} {s s' : σ}
  {environment : Environment}

theorem status?_of_idle {x : LogEntry} {f : Int} {levels : List (List Int)} (I : Idle g x)
    (hlevel : levelIn levels x.node = levelIn levels f) (hlt : f < x.node) :
    x.status? = some (g.statusAfter levels f x.node) := by
  have : ¬x.node < f ∧ x.node ≠ f := by omega
  obtain ⟨r, hr, ⟨hc, -, hx⟩ | ⟨hc, -, -, hx⟩⟩ := I
  · simp [statusAfter, hlevel, this, hasCommands, hr, hc, hx, LogEntry.status?, Ending.status?]
  · simp [statusAfter, hlevel, this, hasCommands, hr, hc, hx, LogEntry.status?, Ending.status?]

section
variable {crew : Crew σ} {rs : List (List LogEntry)} {xs : List LogEntry} {d : Drain σ} {m : Nat}
  (S : Stopped g crew s rs xs d) (H : g.Valid) (hl : (g.labels.map Prod.snd).Nodup)
  (hlabel : crew.label = labelOf g.labels) (hall : ∀ n, g.contains n → g.doneBy m n)
include S H hl hlabel hall

theorem stopsAt_of_stopped : g.StopsAt ((List.range m).map g.level) (rs.length + 1) d := by
  have A := S.accounts H hl hlabel
  have hlevelIn : ∀ n i, g.OnLevel i n → levelIn ((List.range m).map g.level) n = i + 1 :=
    fun n i hi => H.levelIn_of_onLevel hall hi
  refine ⟨?_, fun n hn hlevel => ?_, fun n hn hlevel => ?_, fun n hn hlevel => ?_⟩
  · obtain ⟨x, hx, hf⟩ := S.failed
    have hlast := (S.mem_last H).1 (List.mem_map_of_mem hx)
    refine ⟨x.node, H.contains_of_doneBy hlast.1, hlevelIn _ _ hlast, ?_⟩
    exact (A.status?_executed (by simp [hx])).trans hf
  · obtain ⟨i, -, hi⟩ := exists_onLevel (hall n hn)
    have := hlevelIn n i hi
    obtain rfl : i = rs.length := by omega
    obtain ⟨x, hx, rfl⟩ := List.mem_map.1 ((S.mem_last H).2 hi)
    have hmem : x ∈ (rs ++ [xs]).flatten := by simp [hx]
    obtain ⟨before, after, hsplit⟩ := List.append_of_mem hmem
    refine ⟨before, x, after, S.history.log.trans hsplit, rfl, A.status?_executed hmem, ?_⟩
    intro hc
    rcases flagAfter_iff.1 (S.history.warned before x after hsplit hc) with hflag | ⟨-, hfailed⟩
    · cases hflag
    · exact hfailed
  · obtain ⟨i, -, hi⟩ := exists_onLevel (hall n hn)
    have := hlevelIn n i hi
    exact S.status?_of_lt H hl hlabel hi (by omega)
  · obtain ⟨i, -, hi⟩ := exists_onLevel (hall n hn)
    have := hlevelIn n i hi
    obtain ⟨hskipped, hnot⟩ := S.status?_of_gt H hl hlabel hi (by omega)
    exact ⟨hskipped, S.history.log ▸ hnot, S.history.deedsOf_eq_nil hnot⟩

theorem stopsBehind_of_stopped (hff : crew.failFast = true) (hturn : crew.host.InTurn) :
    ∃ before x after, g.StopsBehind crew ((List.range m).map g.level) s before x after d := by
  have A := S.accounts H hl hlabel
  have hasc : (xs.map LogEntry.node).Pairwise (· < ·) :=
    (S.history.inOrder hturn).ascending xs (by simp)
  obtain ⟨us, x, vs, rfl, hf, hok, hexec, hidle⟩ := S.exists_first hff hturn
  have hx := (S.mem_last H).1 (List.mem_map_of_mem (by simp : x ∈ us ++ x :: vs))
  refine ⟨rs.flatten ++ us, x, vs, by simp [S.history.log], hf, fun y hy hy' => ?_, fun n hn => ?_,
    hexec, fun y hy _ _ => (hidle y hy).command_not_mem⟩
  · cases (hok y hy).symm.trans hy'
  obtain ⟨i, -, hi⟩ := exists_onLevel (hall n hn)
  have hxlevel := H.levelIn_of_onLevel hall hx
  have hnlevel := H.levelIn_of_onLevel hall hi
  rcases Nat.lt_trichotomy i rs.length with hlt | rfl | hlt
  · rw [S.status?_of_lt H hl hlabel hi hlt, statusAfter, if_pos (by omega)]
  · -- on the level of the failure the place in the round decides
    obtain ⟨y, hy, rfl⟩ := List.mem_map.1 ((S.mem_last H).2 hi)
    rw [List.map_append, List.map_cons, List.pairwise_append, List.pairwise_cons] at hasc
    obtain ⟨-, ⟨hafter, -⟩, hbefore⟩ := hasc
    have hflat : y ∈ (rs ++ [us ++ x :: vs]).flatten := by
      rw [List.flatten_concat]
      exact List.mem_append_right _ hy
    rw [A.status?_executed hflat]
    rcases List.mem_append.1 hy with hy | hy
    · have hlt := hbefore _ (List.mem_map_of_mem hy) _ List.mem_cons_self
      rw [statusAfter, if_neg (by omega), if_neg (by omega), if_pos hlt]
      exact hok y (List.mem_append_right _ hy)
    rcases List.mem_cons.1 hy with rfl | hy
    · rw [statusAfter, if_neg (by omega), if_neg (by omega), if_neg (by omega), if_pos rfl]
      exact hf
    · exact status?_of_idle (hidle y hy) (by omega) (hafter _ (List.mem_map_of_mem hy))
  · rw [(S.status?_of_gt H hl hlabel hi hlt).1, statusAfter, if_neg (by omega), if_pos (by omega)]

end

/-- A run that fails fast ends with a fault if an execution is aborted. Otherwise every label gets
one result, and the failed and the skipped nodes are what is left of the graph. Without a failure
every node is executed and goes through. Otherwise the run stops at the level of the failures, after
all its nodes were executed.

Where recipes run in turn, the nodes are executed in the order of the levels, each on the host that
the one before it left, and the run stops behind the first failure: no command starts after it. -/
theorem run_failFast_exact (hg : g.Reachable) (ha : g.Acyclic)
    (hl : (g.labels.map Prod.snd).Nodup) (hs : Starts h vars o s environment s')
    (hff : o.failFast = true) :
    ∃ levels halt d, g.levels = .ok levels ∧ g.run h vars o s = (halt, d) ∧
      Recorded g (g.crew h vars environment o) s' d ∧
      ((∃ fault, halt = some (.fault fault) ∧ ∃ x ∈ d.log, x.ending = .aborted fault) ∨
        halt = none ∧ (∀ x ∈ d.log, ¬x.Aborted) ∧
        d.results.names.Perm (g.labels.map Prod.snd) ∧
        (∀ n, d.graph.contains n ↔ g.contains n ∧
          (g.status? d.results n = some .failed ∨ g.status? d.results n = some .skipped)) ∧
        ((∀ n, g.contains n →
            n ∈ d.log.map LogEntry.node ∧ g.status? d.results n = some .ok) ∨
          ∃ i, g.StopsAt levels i d) ∧
        (h.InTurn → d.log.map LogEntry.node <+: levels.flatten ∧
          (∃ rounds, rounds.flatten = d.log ∧
            InOrder g (g.crew h vars environment o) s' rounds d) ∧
          ((∀ n, g.contains n → g.status? d.results n = some .ok) ∨ ∃ before x after,
            g.StopsBehind (g.crew h vars environment o) levels s' before x after d))) := by
  have H := hg.valid
  obtain ⟨m, hm, hall, hlevels⟩ := H.levels_ok ha
  obtain ⟨halt, d, hrun, E⟩ := drain_ends H (g.crew h vars environment o) s'
  refine ⟨_, halt, d, hlevels, hs.run_eq.trans hrun, E.recorded, ?_⟩
  have hne := E.ne_error H ha
  cases E with
  | stuck => exact absurd rfl (hne _)
  | aborted _ hmem hfault => exact .inl ⟨_, rfl, _, hmem, hfault⟩
  | @finished rs _ P hsize =>
    have hf := P.alive hff
    have hok : ∀ n, g.contains n →
        n ∈ rs.flatten.map LogEntry.node ∧ g.status? d.results n = some .ok := fun n hn => by
      have hmem := P.mem_map_node H hf hsize hn
      obtain ⟨x, hx, rfl⟩ := List.mem_map.1 hmem
      exact ⟨hmem, P.status?_eq_ok rfl hf hx⟩
    refine .inr ⟨rfl, P.history.log ▸ P.history.not_aborted, (P.accounts rfl H hl hsize).names_perm,
      fun n => ?_, .inl (P.history.log ▸ hok), fun hturn => ⟨?_, ⟨rs, P.history.log.symm,
        P.history.inOrder hturn⟩, .inl fun n hn => (hok n hn).2⟩⟩
    · refine iff_of_false (not_contains_of_size_eq_zero hsize) ?_
      rintro ⟨hn, h | h⟩ <;> cases (hok n hn).2.symm.trans h
    · have := P.hasHeight H hf (P.part.valid.frontier_eq_nil_of_size hsize)
      rw [P.history.log, List.map_flatten, P.history.map_map_node H hturn, P.map_roundNodes H hf,
        height_unique hm this]
  | @stopped rs xs _ _ S =>
    refine .inr ⟨rfl, S.history.log ▸ S.history.not_aborted, (S.accounts H hl rfl).names_perm,
      fun n => S.contains_iff H hl rfl, .inr ⟨_, stopsAt_of_stopped S H hl rfl hall⟩,
      fun hturn => ⟨?_, ⟨rs ++ [xs], S.history.log.symm, S.history.inOrder hturn⟩,
        .inr (stopsBehind_of_stopped S H hl rfl hall hff hturn)⟩⟩
    obtain ⟨x, hx, -⟩ := S.failed
    have hlast := (S.mem_last H).1 (List.mem_map_of_mem hx)
    rw [S.history.log, List.map_flatten, S.history.map_map_node H hturn, S.map_roundNodes H]
    exact flatten_levels_prefix
      (H.lt_of_onLevel_of_doneBy hlast (hall _ (H.contains_of_doneBy hlast.1)))

/-- The diamond on a host on which the command `b` fails. -/
theorem run_failFast_exact_diamond : ∃ g, build (fun _ => false) diamond = .ok g ∧
    ∃ levels d, g.levels = .ok levels ∧
      g.run (.answering fun c => if c = ['b'] then 1 else 0) .empty {} () = (none, d) ∧
      d.log.map LogEntry.node <+: levels.flatten ∧
      d.results.names.Perm [['a'], ['b'], ['c'], ['d']] := by
  obtain ⟨g, hg, hr, hplan, hlabels, hplain⟩ := build_diamond
  have hl : g.labels.map Prod.snd = [['a'], ['b'], ['c'], ['d']] := by rw [hlabels]; rfl
  have hs := starts_answering (o := {}) (fun c => if c = ['b'] then 1 else 0) rfl
  have hx := not_aborted_answering _ hr.valid hs rfl hplain
  obtain ⟨levels, halt, d, hlevels, hrun, -, ⟨fault, -, x, hmem, hfault⟩ | ⟨rfl, -, hnames, -, -,
    hturn⟩⟩ := run_failFast_exact hr (hr.valid.acyclic_of_plan hplan) (hl ▸ by decide) hs rfl
  · rw [hrun] at hx
    exact absurd (LogEntry.aborted_iff.2 ⟨fault, hfault⟩) (hx x hmem).1
  · exact ⟨g, hg, levels, d, hlevels, hrun, (hturn fun _ => rfl).1, hl ▸ hnames⟩

/-- Recipes `a` and `b` need nothing and have a command each. -/
def pair : List Recipe :=
  [⟨[['a']], [], [{ text := ['a'] }]⟩, ⟨[['b']], [], [{ text := ['b'] }]⟩]

/-- A host on which the command `a` fails. Its one worker takes both recipes to their ends before
a result is handled. -/
def lateHost : Host Unit :=
  { Host.answering fun c => if c = ['a'] then 1 else 0 with
    schedule := fun _ => [0, 0, 0, 0, 1, 1, 1, 1, 1].map .work }

/-- A recipe can run after one of its level failed, also with one worker: `a` fails, and then the
command of `b` is run and `b` goes through. -/
theorem run_failFast_late : ∃ g, build (fun _ => false) pair = .ok g ∧
    g.levels = .ok [[0, 1]] ∧
    let out := g.run lateHost .empty { workers := some 1 } ()
    out.1 = none ∧ out.2.results.entries = [(['a'], .failed), (['b'], .ok)] ∧
      out.2.events = [.frontier 1 [['a'], ['b']], .command ['a'] ['a'], .output ['a'] [] [],
        .command ['b'] ['b'], .output ['b'] [] [],
        .failure ['a'] (BuildError.command ['a'] ['a'] 1).render, .success ['b']] :=
  ⟨_, rfl, rfl, by decide +kernel⟩

end Graph

end Haybuild
