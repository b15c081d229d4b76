import SharedHeap.Proofs.Sweep

/-! # Collectors do not disturb each other

An object may be registered in several collectors, and the links of one collector's objects may lead
to those of another. A cleanup of one collector releases slots all the same without any effect on
another: what it takes out is not registered elsewhere. -/

namespace SharedHeap

open Program (Runner Session)

namespace Heap

variable {w : Heap} {g₁ g₂ : CollectorId} {c₁ c₂ : Collector}

/-- What a cleanup comes to after the cleanup of another collector is what it came to before. -/
theorem cleanup_cleanup (hn : w.Numbered) (hg : g₁ ≠ g₂) (hc₁ : w.collectors[g₁]? = some c₁)
    (hc₂ : w.collectors[g₂]? = some c₂) :
    (w.cleanup g₁).2.cleanup g₂ =
      ((c₂.clean (w.markFrom c₂.registry)).stats,
        (w.settle g₁ (c₁.clean (w.markFrom c₁.registry))).settle g₂
          (c₂.clean (w.markFrom c₂.registry))) := by
  have hc₂' : (w.cleanup g₁).2.collectors[g₂]? = some c₂ := by
    rw [cleanup_eq hn hc₁]
    exact (collectors_settle_of_ne hg.symm _).trans hc₂
  rw [cleanup_eq (hn.cleanup hc₁) hc₂', markFrom_cleanup hn hc₁ hg.symm hc₂, cleanup_eq hn hc₁]

/-- Two collectors may be settled in either order, but for the order of what is reported. -/
theorem settle_settle (hg : g₁ ≠ g₂) (d₁ d₂ : Cleaned) :
    (w.settle g₁ d₁).settle g₂ d₂ =
      { (w.settle g₂ d₂).settle g₁ d₁ with events := d₂.reports ++ (d₁.reports ++ w.events) } := by
  simp only [settle, List.set_comm _ _ hg, Nat.add_right_comm]

end Heap

open Heap

/-- The same where a session without hooks has both locks. -/
theorem Program.Session.cleanup_cleanup {s : Session} {g₁ g₂ : CollectorId} {c₁ c₂ : Collector}
    (run : Runner) (hooks : s.hooks = ∅) (hn : s.heap.Numbered) (hg : g₁ ≠ g₂)
    (hc₁ : s.heap.collectors[g₁]? = some c₁) (hc₂ : s.heap.collectors[g₂]? = some c₂)
    (hl₁ : (s.acquire g₁).stuck = false) (hl₂ : (s.acquire g₂).stuck = false) :
    (s.cleanup run g₁).2.cleanup run g₂ =
      ((c₂.clean (s.heap.markFrom c₂.registry)).stats,
        { s with
          heap := (s.heap.settle g₁ (c₁.clean (s.heap.markFrom c₁.registry))).settle g₂
            (c₂.clean (s.heap.markFrom c₂.registry)) }) := by
  have hl : (({ s with heap := (s.heap.cleanup g₁).2 } : Session).acquire g₂).stuck = false := by
    simp only [acquire, collector_cleanup_of_ne hn hc₁ hg.symm] at hl₂ ⊢
    split at hl₂
    · cases hl₂
    · rw [if_neg ‹_›]; exact hl₂
  have hsecond := cleanup_eq (s := { s with heap := (s.heap.cleanup g₁).2 }) run hooks hl
  rw [Heap.cleanup_cleanup hn hg hc₁ hc₂] at hsecond
  rw [cleanup_eq run hooks hl₁]
  exact hsecond

/-- **Cleanups of different collectors are independent.** Open queues have different numbers in every
run, also of a program. Now let no hooks be there, and let the locks of two collectors be free. A
cleanup of the first leaves the second as it is, with its registry, state and counters; it leaves
every link as it is, and the number of holders of every object that is registered in the second. So
each of the two cleanups answers the same whether it comes first or last, and both orders lead to the
same session, in which only the reports of the two cleanups are in the order of the cleanups. -/
theorem cleanups_independent :
    (∀ n as, ((initial n).performs as).Numbered) ∧
    (∀ depth steps name spec, (Program.runSteps depth steps (.start name spec)).2.heap.Numbered) ∧
    ∀ (run : Runner) (s : Session) (g₁ g₂ : CollectorId),
      s.hooks = ∅ → s.heap.Numbered → g₁ ≠ g₂ →
      g₁ < s.heap.collectors.length → g₂ < s.heap.collectors.length →
      (s.acquire g₁).stuck = false → (s.acquire g₂).stuck = false →
      let first := s.cleanup run g₁
      let second := s.cleanup run g₂
      first.2.heap.collector g₂ = s.heap.collector g₂ ∧
      (∀ h, s.heap.Registered g₂ h → first.2.heap.holderCount h = s.heap.holderCount h) ∧
      (∀ h, first.2.heap.object h = s.heap.object h) ∧
      (first.2.cleanup run g₂).1 = second.1 ∧ (second.2.cleanup run g₁).1 = first.1 ∧
      ∃ (t : Session) (e₁ e₂ : List Event),
        (first.2.cleanup run g₂).2 =
          t.update (fun w => { w with events := e₂ ++ (e₁ ++ s.heap.events) }) ∧
        (second.2.cleanup run g₁).2 =
          t.update (fun w => { w with events := e₁ ++ (e₂ ++ s.heap.events) }) := by
  refine ⟨fun n as => (numbered_initial n).performs as, numbered_runSteps, ?_⟩
  intro run s g₁ g₂ hooks hn hg hlt₁ hlt₂ hl₁ hl₂ first second
  obtain ⟨c₁, hc₁⟩ : ∃ c, s.heap.collectors[g₁]? = some c := ⟨_, List.getElem?_eq_getElem hlt₁⟩
  obtain ⟨c₂, hc₂⟩ : ∃ c, s.heap.collectors[g₂]? = some c := ⟨_, List.getElem?_eq_getElem hlt₂⟩
  have hfirst := Session.cleanup_eq run hooks hl₁
  have hsecond := Session.cleanup_eq run hooks hl₂
  have hboth := Session.cleanup_cleanup run hooks hn hg hc₁ hc₂ hl₁ hl₂
  have hboth' := Session.cleanup_cleanup run hooks hn hg.symm hc₂ hc₁ hl₂ hl₁
  refine ⟨?_, fun h hr => ?_, fun h => ?_, ?_, ?_, ?_⟩
  · show (s.cleanup run g₁).2.heap.collector g₂ = _
    rw [hfirst]
    exact collector_cleanup_of_ne hn hc₁ hg.symm
  · show (s.cleanup run g₁).2.heap.holderCount h = _
    rw [hfirst]
    exact holderCount_cleanup hn hc₁ hg.symm hr
  · show (s.cleanup run g₁).2.heap.object h = _
    rw [hfirst, object, (cleanup_frame hn hc₁).1]
    rfl
  · rw [hboth]
    show _ = (s.cleanup run g₂).1
    rw [hsecond, Heap.cleanup_eq hn hc₂]
  · rw [hboth']
    show _ = (s.cleanup run g₁).1
    rw [hfirst, Heap.cleanup_eq hn hc₁]
  · refine ⟨(second.2.cleanup run g₁).2, (c₁.clean (s.heap.markFrom c₁.registry)).reports,
      (c₂.clean (s.heap.markFrom c₂.registry)).reports, ?_, ?_⟩
    · rw [hboth, hboth', settle_settle hg]
      rfl
    · rw [hboth']
      rfl

/-- Nobody holds any of four objects. The first is registered in both collectors and links to one that
is registered in the second; another one of the first collector links to the last of the second. Each
cleanup takes one object out, whichever comes first. -/
theorem cleanups_independent_of_shared :
    let x (n : Nat) : Holder := ⟨.fresh n, .whole⟩
    let create (n : Nat) (g : CollectorId) : List Action :=
      [.allocate .node, .clone (x n), .register g (x n)]
    let w := (initial 1).performs ([.addCollector 9, .addCollector 9] ++ create 0 0 ++
      [.clone (x 0), .register 1 (x 0)] ++ create 1 0 ++ create 2 1 ++ create 3 1 ++
      (List.range 4).map (fun n => .drop (x n)) ++
      [.touch (.fresh 0) (.link (.fresh 2)), .touch (.fresh 1) (.link (.fresh 3))])
    let run : Runner := Program.runSteps 0
    let s : Session := { heap := w }
    (s.cleanup run 0).1 = ⟨2, 1, 1⟩ ∧ ((s.cleanup run 0).2.cleanup run 1).1 = ⟨3, 2, 1⟩ ∧
      (s.cleanup run 1).1 = ⟨3, 2, 1⟩ ∧ ((s.cleanup run 1).2.cleanup run 0).1 = ⟨2, 1, 1⟩ ∧
      (s.cleanup run 0).2.heap.holderCount (.fresh 0) = 2 := by
  intro x create w run s
  obtain ⟨-, hholders, -, hsecond, hfirst, -⟩ := cleanups_independent.2.2 run s 0 1 rfl
    (cleanups_independent.1 1 _) (by decide) (by decide +kernel) (by decide +kernel)
    (by decide +kernel) (by decide +kernel)
  have hs₀ : (s.cleanup run 0).1 = ⟨2, 1, 1⟩ := by decide +kernel
  have hs₁ : (s.cleanup run 1).1 = ⟨3, 2, 1⟩ := by decide +kernel
  refine ⟨hs₀, hsecond.trans hs₁, hs₁, hfirst.trans hs₀, ?_⟩
  exact (hholders _ (by rw [Registered]; decide +kernel)).trans (by decide +kernel)

end SharedHeap
