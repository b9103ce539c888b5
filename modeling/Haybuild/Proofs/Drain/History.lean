import Haybuild.Proofs.Drain.Round
import Haybuild.Proofs.Graph.Level

/-!
# The history of a run

Round after round a run executes the levels of its graph, save the nodes that need a failed one
(`IsRound`). `History` is what the rounds so far have left in the log, the journal, the events and
the results, whatever schedule the host has; where recipes run in turn, the executions follow one
another and the events are those of one execution after the other (`InOrder`).
-/

namespace Haybuild

/-! ## What is announced -/

namespace Event

/-- The frontiers that are announced, with their numbers. -/
def announced (events : List Event) : List (Int × List Text) :=
  events.filterMap fun
    | .frontier index names => some (index, names)
    | _ => none

theorem announced_append (es fs : List Event) :
    announced (es ++ fs) = announced es ++ announced fs := List.filterMap_append

theorem announced_eq_nil {events : List Event} (h : ∀ index names, .frontier index names ∉ events) :
    announced events = [] := by
  refine List.filterMap_eq_nil_iff.2 fun e he => ?_
  cases e with
  | frontier index names => exact absurd he (h index names)
  | _ => rfl

end Event

namespace Drain
open Relation

variable {σ : Type}

/-! ## Failures -/

/-- The node was executed and failed. -/
def FailedIn (log : List LogEntry) (n : Int) : Prop := ∃ x ∈ log, x.node = n ∧ x.Failed

/-- The node needs one that failed, however indirectly. -/
def Lost (g : Graph) (log : List LogEntry) (n : Int) : Prop :=
  ∃ f, TransGen g.Needs n f ∧ FailedIn log f

section
variable {g : Graph} {log xs ys : List LogEntry} {a b n : Int} {i : Nat}

theorem failedIn_append : FailedIn (log ++ ys) n ↔ FailedIn log n ∨ FailedIn ys n := by
  simp only [FailedIn, List.mem_append, or_and_right, exists_or]

theorem FailedIn.mem_map (h : FailedIn log n) : n ∈ log.map LogEntry.node := by
  obtain ⟨x, hx, rfl, -⟩ := h
  exact List.mem_map_of_mem hx

theorem mem_failedNodes : n ∈ (xs.filter (·.Failed)).map LogEntry.node ↔ FailedIn xs n := by
  simp only [List.mem_map, List.mem_filter, decide_eq_true_eq, FailedIn]
  exact exists_congr fun x => by tauto

theorem lost_append : Lost g (log ++ ys) n ↔ Lost g log n ∨ Lost g ys n := by
  simp only [Lost, failedIn_append, and_or_left, exists_or]

theorem Lost.of_needs (h : Lost g log b) (hab : g.Needs a b) : Lost g log a := by
  obtain ⟨f, hbf, hf⟩ := h
  exact ⟨f, .head hab hbf, hf⟩

theorem Lost.of_reflTransGen (h : Lost g log b) (hab : ReflTransGen g.Needs a b) :
    Lost g log a := by
  obtain ⟨f, hbf, hf⟩ := h
  exact ⟨f, .trans_right hab hbf, hf⟩

/-- A failure costs only nodes on higher levels. -/
theorem not_lost_of_doneBy (H : g.Valid) (hn : g.doneBy (i + 1) n)
    (hlog : ∀ x ∈ log, x.Failed → ¬g.doneBy i x.node) : ¬Lost g log n := by
  rintro ⟨f, hnf, x, hx, rfl, hf⟩
  exact hlog x hx hf (H.doneBy_of_transGen hnf hn)

theorem not_lost_of_not_failed (hf : ∀ x ∈ log, ¬x.Failed) : ¬Lost g log n :=
  fun ⟨_, _, x, hx, _, hxf⟩ => hf x hx hxf

end

/-! ## Rounds -/

/-- The nodes of a round, in ascending order. -/
def roundNodes (g : Graph) (xs : List LogEntry) : List Int :=
  g.nodes.filter (· ∈ xs.map LogEntry.node)

/-- A round that executes a level, save the nodes that are lost. -/
structure IsRound (g : Graph) (log : List LogEntry) (i : Nat) (xs : List LogEntry) : Prop where
  ne_nil : xs ≠ []
  nodup : (xs.map LogEntry.node).Nodup
  mem_iff : ∀ n, n ∈ xs.map LogEntry.node ↔ g.OnLevel i n ∧ ¬Lost g log n

section
variable {g : Graph} {log xs ys : List LogEntry} {ns : List Int} {i : Nat}

/-- A later round leaves an earlier one what it is. -/
theorem IsRound.append (R : IsRound g log i xs) (H : g.Valid)
    (hys : ∀ y ∈ ys, ¬g.doneBy i y.node) : IsRound g (log ++ ys) i xs where
  ne_nil := R.ne_nil
  nodup := R.nodup
  mem_iff n := by
    rw [R.mem_iff, lost_append, not_or]
    exact and_congr_right fun hn =>
      (and_iff_left (not_lost_of_doneBy H hn.1 fun y hy _ => hys y hy)).symm

/-- Nodes of the graph in ascending order are those of a round if they have the same members. -/
theorem eq_roundNodes (hns : ns.Pairwise (· < ·)) (hg : ∀ n ∈ ns, g.contains n)
    (h : ∀ n, n ∈ xs.map LogEntry.node ↔ n ∈ ns) : ns = roundNodes g xs :=
  hns.eq_of_mem_iff (g.nodes_ascending.filter _) fun n => by
    rw [roundNodes, List.mem_filter, Graph.mem_nodes, decide_eq_true_eq, h]
    exact (and_iff_right_of_imp (hg n)).symm

end

/-! ## What is told -/

/-- What is told about a round whose executions come one after the other: its frontier, and then the
executions. -/
def toldRound (g : Graph) (label : Int → Text) (round : Nat) (xs : List LogEntry) : List Event :=
  .frontier round (xs.map fun x => g.nameOf x.node) :: xs.flatMap fun x => x.told (label x.node)

/-- What is told about such rounds, the first of which has the given number. -/
def toldFrom (g : Graph) (label : Int → Text) : Nat → List (List LogEntry) → List Event
  | _, [] => []
  | round, xs :: rs => toldRound g label round xs ++ toldFrom g label (round + 1) rs

theorem toldFrom_concat {g : Graph} {label : Int → Text} (round : Nat) (rs : List (List LogEntry))
    (xs : List LogEntry) :
    toldFrom g label round (rs ++ [xs]) =
      toldFrom g label round rs ++ toldRound g label (round + rs.length) xs := by
  induction rs generalizing round with
  | nil => simp [toldFrom]
  | cons ys rs ih =>
    simp only [List.cons_append, toldFrom, ih, List.length_cons, List.append_assoc]
    rw [Nat.add_right_comm, Nat.add_assoc]

/-- The rounds as they are announced: their numbers, and the names of their nodes in ascending
order. -/
def announcements (g : Graph) (rs : List (List LogEntry)) : List (Int × List Text) :=
  (rs.zipIdx 1).map fun e => ((e.2 : Int), (roundNodes g e.1).map g.nameOf)

theorem announcements_concat {g : Graph} (rs : List (List LogEntry)) (xs : List LogEntry) :
    announcements g (rs ++ [xs]) =
      announcements g rs ++ [(((rs.length + 1 : Nat) : Int), (roundNodes g xs).map g.nameOf)] := by
  simp [announcements, List.zipIdx_append, Nat.add_comm]

/-! ## Histories -/

/-- The journal of a run is what its host did, and explains how each execution ended. -/
structure Recorded (g : Graph) (crew : Crew σ) (s : σ) (d : Drain σ) : Prop where
  follows : Follows crew.host crew.setting s d.journal d.host
  explained : ∀ x ∈ d.log, x.Explained g d.journal

/-- The rounds of a run were executed in turn: one recipe after the other in ascending order, each
on the host that the one before it left. -/
structure InOrder (g : Graph) (crew : Crew σ) (s : σ) (rs : List (List LogEntry)) (d : Drain σ) :
    Prop where
  executes : Executes g crew false s rs.flatten d.host
  ascending : ∀ xs ∈ rs, (xs.map LogEntry.node).Pairwise (· < ·)
  events : d.events = toldFrom g crew.label 1 rs

/-- What the rounds so far have left: their log, journal, events and results. The nodes that satisfy
`p` are reported as skipped. -/
structure History (g : Graph) (crew : Crew σ) (s : σ) (rs : List (List LogEntry)) (p : Int → Prop)
    (d : Drain σ) : Prop where
  rounds : ∀ i (hi : i < rs.length), IsRound g rs.flatten i rs[i]
  log : d.log = rs.flatten
  not_aborted : ∀ x ∈ rs.flatten, ¬x.Aborted
  warned : Warned crew.failFast false rs.flatten
  results : Reported crew.label rs.flatten p d.results
  recorded : Recorded g crew s d
  journal : ∀ e ∈ d.journal, e.1 ∈ rs.flatten.map LogEntry.node
  announced : Event.announced d.events = announcements g rs
  inOrder : crew.host.InTurn → InOrder g crew s rs d

namespace History

variable {g : Graph} {crew : Crew σ} {s : σ} {rs : List (List LogEntry)} {p q : Int → Prop}
  {d d' : Drain σ} {n : Int} {x : LogEntry}

/-- Only the graph and the results change after the executions of a round. -/
theorem report (A : History g crew s rs p d)
    (hframe : d' = { d with graph := d'.graph, results := d'.results })
    (R : Reported crew.label rs.flatten q d'.results) : History g crew s rs q d' := by
  have hlog : d'.log = d.log := by rw [hframe]
  have hjournal : d'.journal = d.journal := by rw [hframe]
  have hhost : d'.host = d.host := by rw [hframe]
  have hevents : d'.events = d.events := by rw [hframe]
  refine ⟨A.rounds, hlog.trans A.log, A.not_aborted, A.warned, R, ⟨?_, ?_⟩, ?_, ?_, fun hturn => ?_⟩
  · rw [hjournal, hhost]
    exact A.recorded.follows
  · rw [hjournal, hlog]
    exact A.recorded.explained
  · rw [hjournal]
    exact A.journal
  · rw [hevents]
    exact A.announced
  · obtain ⟨hexec, hasc, htold⟩ := A.inOrder hturn
    exact ⟨hhost ▸ hexec, hasc, hevents.trans htold⟩

/-- What was executed is on one of the levels so far, and no failure cost it. -/
theorem exists_onLevel (A : History g crew s rs p d) (hn : n ∈ rs.flatten.map LogEntry.node) :
    ∃ i < rs.length, g.OnLevel i n ∧ ¬Lost g rs.flatten n := by
  obtain ⟨x, hx, rfl⟩ := List.mem_map.1 hn
  obtain ⟨xs, hxs, hx⟩ := List.mem_flatten.1 hx
  obtain ⟨i, hi, rfl⟩ := List.getElem_of_mem hxs
  exact ⟨i, hi, ((A.rounds i hi).mem_iff _).1 (List.mem_map_of_mem hx)⟩

theorem doneBy (A : History g crew s rs p d) (H : g.Valid)
    (hn : n ∈ rs.flatten.map LogEntry.node) : g.doneBy rs.length n := by
  obtain ⟨i, hi, hlevel, -⟩ := A.exists_onLevel hn
  exact H.doneBy_mono hi hlevel.1

/-- A node is executed by the rounds so far exactly when they could do it and no failure cost it. -/
theorem mem_map_node (A : History g crew s rs p d) (H : g.Valid) :
    n ∈ rs.flatten.map LogEntry.node ↔ g.doneBy rs.length n ∧ ¬Lost g rs.flatten n := by
  constructor
  · intro hn
    obtain ⟨i, hi, hlevel, hlost⟩ := A.exists_onLevel hn
    exact ⟨H.doneBy_mono hi hlevel.1, hlost⟩
  · rintro ⟨hdone, hlost⟩
    obtain ⟨i, hi, hlevel⟩ := Graph.exists_onLevel hdone
    have hmem := (A.rounds i hi).mem_iff n
    obtain ⟨x, hx, rfl⟩ := List.mem_map.1 (hmem.2 ⟨hlevel, hlost⟩)
    exact List.mem_map_of_mem (List.mem_flatten_of_mem (List.getElem_mem hi) hx)

/-- No node is executed twice. -/
theorem nodup (A : History g crew s rs p d) (H : g.Valid) :
    (rs.flatten.map LogEntry.node).Nodup := by
  rw [List.map_flatten, List.nodup_flatten]
  refine ⟨fun l hl => ?_, ?_⟩
  · obtain ⟨xs, hxs, rfl⟩ := List.mem_map.1 hl
    obtain ⟨i, hi, rfl⟩ := List.getElem_of_mem hxs
    exact (A.rounds i hi).nodup
  · refine List.pairwise_map.2 (List.pairwise_iff_getElem.2 fun i j hi hj hij n hni hnj => ?_)
    have hi' := ((A.rounds i hi).mem_iff n).1 hni
    have hj' := ((A.rounds j hj).mem_iff n).1 hnj
    exact Nat.ne_of_lt hij (H.onLevel_unique hi'.1 hj'.1)

/-- When no node is lost, the rounds execute the levels of the graph. -/
theorem map_roundNodes (A : History g crew s rs p d) (H : g.Valid)
    (hlost : ∀ i n, i < rs.length → g.OnLevel i n → ¬Lost g rs.flatten n) :
    rs.map (roundNodes g) = (List.range rs.length).map g.level := by
  refine List.ext_getElem (by simp) fun i hi hi' => ?_
  rw [List.length_map] at hi
  rw [List.getElem_map, List.getElem_map, List.getElem_range]
  refine (eq_roundNodes (g.level_ascending i) (fun n hn => ?_) fun n => ?_).symm
  · exact H.contains_of_doneBy (H.mem_level.1 hn).1
  · rw [(A.rounds i hi).mem_iff, H.mem_level]
    exact and_iff_left_of_imp (hlost i n hi)

/-- In turn the nodes of each round are executed in ascending order. -/
theorem map_map_node (A : History g crew s rs p d) (H : g.Valid) (hturn : crew.host.InTurn) :
    rs.map (·.map LogEntry.node) = rs.map (roundNodes g) := by
  refine List.map_congr_left fun xs hxs => ?_
  refine eq_roundNodes ((A.inOrder hturn).ascending xs hxs) (fun n hn => ?_) fun n => Iff.rfl
  obtain ⟨i, hi, rfl⟩ := List.getElem_of_mem hxs
  exact H.contains_of_doneBy (((A.rounds i hi).mem_iff n).1 hn).1.1

/-- A recipe that was not executed did nothing. -/
theorem deedsOf_eq_nil (A : History g crew s rs p d) (hn : n ∉ rs.flatten.map LogEntry.node) :
    deedsOf n d.journal = [] :=
  Haybuild.deedsOf_eq_nil fun e he hen => hn (hen ▸ A.journal e he)

/-- Before the first failure every execution went through: none was cancelled without one. -/
theorem completed (A : History g crew s rs p d) {xs ys : List LogEntry}
    (hlog : rs.flatten = xs ++ ys) (halive : crew.failFast → ∀ y ∈ xs, ¬y.Failed) (hx : x ∈ xs)
    (hf : ¬x.Failed) : x.Completed := by
  have haborted := A.not_aborted x (hlog ▸ List.mem_append_left _ hx)
  obtain ⟨before, after, rfl⟩ := List.append_of_mem hx
  rw [List.append_assoc, List.cons_append] at hlog
  rw [LogEntry.failed_iff] at hf
  rw [LogEntry.aborted_iff] at haborted
  rw [LogEntry.completed_iff]
  cases hend : x.ending with
  | completed => rfl
  | cancelled =>
    have hflag := flagAfter_eq_false fun hff y hy => halive hff y (List.mem_append_left _ hy)
    cases (A.warned before x _ hlog hend).symm.trans hflag
  | failed e => exact absurd ⟨e, hend⟩ hf
  | aborted fault => exact absurd ⟨fault, hend⟩ haborted

end History

end Drain

end Haybuild
