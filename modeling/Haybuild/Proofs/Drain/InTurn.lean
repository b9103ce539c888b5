import Haybuild.Proofs.Drain.Pool
import Haybuild.Proofs.Execution

/-!
# Recipes one after the other

Where a host has its recipes take their turns in order, a pool executes them one after the other and
handles each result before the next recipe (`Crew.run_nil`). `Executes` relates such executions with
one another: each starts on the host that the one before it left, with the cancel flag as the
failures before it set it.
-/

namespace Haybuild

variable {σ : Type}

/-- The recipes of every round run one after the other in ascending order of their nodes, and each
result is handled before the next recipe starts. -/
def Host.InTurn (h : Host σ) : Prop := ∀ round, h.schedule round = []

/-- Executes a recipe in one go. A recipe that finds the cancel flag set finds it so before its
first command. -/
def Crew.execute (crew : Crew σ) (cancelled : Bool) (r : Recipe) (s : σ) : Executed σ :=
  r.execute crew.host crew.setting (if cancelled then some 0 else none) s

/-- The execution as the log has it. -/
def Executed.entry (n : Int) (x : Executed σ) : LogEntry :=
  ⟨n, x.events, x.ending⟩

/-- Executions one after the other, from the flag and the host at the start to the host at the
end. -/
inductive Executes (g : Graph) (crew : Crew σ) : Bool → σ → List LogEntry → σ → Prop
  | nil {c : Bool} {s : σ} : Executes g crew c s [] s
  | cons {c s n r xs s'} : g.recipe? n = some r →
      Executes g crew (c || crew.failFast && ((crew.execute c r s).entry n).Failed)
        (crew.execute c r s).host xs s' →
      Executes g crew c s ((crew.execute c r s).entry n :: xs) s'

variable {g g' : Graph} {crew : Crew σ} {c : Bool} {s s₁ s' : σ} {xs ys : List LogEntry}
  {x : LogEntry} {p : Pool σ} {n : Int} {ns : List Int} {r : Recipe}

namespace Executes

theorem append (H₁ : Executes g crew c s xs s₁)
    (H₂ : Executes g crew (flagAfter crew.failFast c xs) s₁ ys s') :
    Executes g crew c s (xs ++ ys) s' := by
  induction H₁ with
  | nil => simpa using H₂
  | cons hr _ ih => exact .cons hr (ih (flagAfter_cons ▸ H₂))

theorem of_append (H : Executes g crew c s (xs ++ ys) s') :
    ∃ s₁, Executes g crew c s xs s₁ ∧
      Executes g crew (flagAfter crew.failFast c xs) s₁ ys s' := by
  induction xs generalizing c s with
  | nil => exact ⟨s, .nil, by simpa using H⟩
  | cons x xs ih =>
    cases H with
    | cons hr H =>
      obtain ⟨s₁, H₁, H₂⟩ := ih H
      exact ⟨s₁, .cons hr H₁, flagAfter_cons ▸ H₂⟩

theorem mono (H : Executes g crew c s xs s')
    (h : ∀ n r, g.recipe? n = some r → g'.recipe? n = some r) : Executes g' crew c s xs s' := by
  induction H with
  | nil => exact .nil
  | cons hr _ ih => exact .cons (h _ _ hr) ih

end Executes

namespace Crew

/-- A recipe that no worker has taken yet is executed in one go when it is settled. -/
theorem settle_queued (crew : Crew σ) (hf : p.fault? = none)
    (hj : p.jobs.get? n = some { recipe := r }) :
    ∃ ds : List Deed, crew.settle p n =
      let x := crew.execute p.cancelled r p.host
      { jobs := p.jobs.erase n
        cancelled := p.cancelled || crew.failFast && (x.entry n).Failed
        host := x.host
        log := p.log ++ [x.entry n]
        journal := p.journal ++ ds.map (n, ·)
        events := p.events ++ (x.entry n).told (crew.label n) } := by
  obtain ⟨ds, hsteps⟩ := Stage.steps_queued crew.host crew.setting r p.cancelled p.host
  have hcomplete : crew.complete n p =
      { p with
        jobs := p.jobs.set n ⟨r, .ended (crew.execute p.cancelled r p.host).ending,
          (crew.execute p.cancelled r p.host).events⟩
        host := (crew.execute p.cancelled r p.host).host
        journal := p.journal ++ ds.map (n, ·)
        events := p.events ++ (crew.execute p.cancelled r p.host).events } := by
    rw [complete, hj]
    dsimp only
    rw [advanceBy_eq hj, hsteps]
    rfl
  refine ⟨ds, ?_⟩
  rw [settle, hf]
  dsimp only
  rw [handle_eq (fault?_complete.trans hf) (by rw [hcomplete]; exact NodeMap.get?_set_self),
    hcomplete]
  simp only [NodeMap.erase_set, List.append_assoc]
  rfl

theorem foldl_settle_of_fault {fault : Fault} (hf : p.fault? = some fault) (ns : List Int) :
    ns.foldl crew.settle p = p := by
  induction ns with
  | nil => rfl
  | cons n ns ih => rwa [List.foldl_cons, settle, hf]

/-- Recipes that no worker has taken yet are executed one after the other when they are settled, up
to the first that ends with a fault. -/
theorem foldl_settle (hnd : ns.Nodup) (hf : p.fault? = none)
    (hjobs : ∀ n ∈ ns, ∃ r, g.recipe? n = some r ∧ p.jobs.get? n = some { recipe := r }) :
    ∃ xs, Executes g crew p.cancelled p.host xs (ns.foldl crew.settle p).host ∧
      (ns.foldl crew.settle p).log = p.log ++ xs ∧ xs.map LogEntry.node <+: ns ∧
      (ns.foldl crew.settle p).events =
        p.events ++ xs.flatMap fun x => x.told (crew.label x.node) := by
  induction ns generalizing p with
  | nil => exact ⟨[], .nil, by simp, List.prefix_refl _, by simp⟩
  | cons n ns ih =>
    obtain ⟨⟨r, hr, hj⟩, hjobs⟩ := List.forall_mem_cons.1 hjobs
    obtain ⟨hn, hnd⟩ := List.nodup_cons.1 hnd
    obtain ⟨ds, hsettle⟩ := settle_queued crew hf hj
    rw [List.foldl_cons]
    cases hf' : (crew.settle p n).fault? with
    | some fault =>
      refine ⟨[(crew.execute p.cancelled r p.host).entry n], ?_⟩
      rw [foldl_settle_of_fault hf', hsettle]
      exact ⟨.cons hr .nil, rfl, List.prefix_append [n] ns, by simp [Executed.entry]⟩
    | none =>
      have hjobs' : ∀ k ∈ ns, ∃ r, g.recipe? k = some r ∧
          (crew.settle p n).jobs.get? k = some { recipe := r } := fun k hk => by
        have hkn : k ≠ n := fun h => hn (h ▸ hk)
        rw [hsettle, NodeMap.get?_erase_of_ne hkn]
        exact hjobs k hk
      obtain ⟨xs, hexec, hlog, hnodes, hevents⟩ := ih hnd hf' hjobs'
      refine ⟨(crew.execute p.cancelled r p.host).entry n :: xs, .cons hr ?_, ?_, ?_, ?_⟩
      · rw [hsettle] at hexec ⊢
        exact hexec
      · rw [hlog, hsettle]
        exact List.append_assoc ..
      · exact List.cons_prefix_cons.2 ⟨rfl, hnodes⟩
      · rw [hevents, hsettle]
        simp [Executed.entry]

/-- In turn a pool executes its recipes one after the other. -/
theorem run_nil (hkeys : p.jobs.keys = ns) (hf : p.fault? = none)
    (hjobs : ∀ n ∈ ns, ∃ r, g.recipe? n = some r ∧ p.jobs.get? n = some { recipe := r }) :
    ∃ xs, Executes g crew p.cancelled p.host xs (crew.run [] p).host ∧
      (crew.run [] p).log = p.log ++ xs ∧ xs.map LogEntry.node <+: ns ∧
      (crew.run [] p).events = p.events ++ xs.flatMap fun x => x.told (crew.label x.node) := by
  subst hkeys
  exact foldl_settle p.jobs.keys_ascending.nodup hf hjobs

end Crew

/-! ## Executions after a failure -/

/-- What an execution is that found the cancel flag set: nothing ran, and the recipe is cancelled if
it has commands. -/
def Idle (g : Graph) (x : LogEntry) : Prop :=
  ∃ r, g.recipe? x.node = some r ∧
    (r.commands = [] ∧ x.events = [] ∧ x.ending = .completed ∨
      r.commands ≠ [] ∧ ∃ message, x.events = [.debug message] ∧ x.ending = .cancelled)

theorem Idle.command_not_mem (I : Idle g x) {recipe cmd : Text} :
    .command recipe cmd ∉ x.events := by
  obtain ⟨r, -, ⟨-, hx, -⟩ | ⟨-, message, hx, -⟩⟩ := I <;> simp [hx]

/-- Once the cancel flag is set every execution is idle, and the host stays as it is. -/
theorem Executes.cancelled (H : Executes g crew true s xs s') :
    s' = s ∧ ∀ x ∈ xs, Idle g x := by
  generalize hc : true = c at H
  induction H with
  | nil => exact ⟨rfl, by simp⟩
  | @cons c s n r xs s' hr _ ih =>
    subst hc
    obtain ⟨hs, hall⟩ := ih (by simp)
    by_cases hcommands : r.commands = []
    · have hx : crew.execute true r s = ⟨[], .completed, s⟩ :=
        Recipe.execute_of_commands_eq_nil hcommands
      rw [hx] at hs ⊢
      exact ⟨hs, List.forall_mem_cons.2 ⟨⟨r, hr, .inl ⟨hcommands, rfl, rfl⟩⟩, hall⟩⟩
    · obtain ⟨message, hx⟩ := Recipe.execute_cancelled crew.host crew.setting s hcommands
      have hx : crew.execute true r s = ⟨[.debug message], .cancelled, s⟩ := hx
      rw [hx] at hs ⊢
      exact ⟨hs, List.forall_mem_cons.2 ⟨⟨r, hr, .inr ⟨hcommands, message, rfl, rfl⟩⟩, hall⟩⟩

end Haybuild
