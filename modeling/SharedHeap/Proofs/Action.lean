import SharedHeap.Proofs.Registration

/-! # Runs

What threads, initialisers, hosts and hooks do to a heap, as atomic actions in any order. An action
is one operation of `Heap`, and `Enabled` says what its caller must have: nobody clones a holder that
it cannot reach, and a slot is made from a holder. Locks are left out, since a critical section is one
action; so are the holders that an access needs, since nothing here depends on them. A hook is
nothing special: its actions stand between two releases. What waits to be released is nobody's, so
nothing can be cloned from it. That leaves out one thing which code could do: a `Drop` that clones the
object it is about out of the slot that is going away. -/

namespace SharedHeap

/-- One access to one object. -/
inductive Touch where
  | link (child : Handle)
  | unlink (child : Handle)
  | clearLinks
  | recordValue (v : Value)
  | putEntry (k : Key) (v : Value)
  | takeEntry (k : Key)
  | forgetValue (v : Option Value)

def Touch.apply (o : Object) : Touch → Object
  | link child => o.link child
  | unlink child => o.unlink child
  | clearLinks => o.clearLinks
  | recordValue v => o.recordValue v
  | putEntry k v => (o.putEntry k v).2
  | takeEntry k => (o.takeEntry k).2
  | forgetValue v => o.forgetValue v

/-- One atomic action on a heap. -/
inductive Action where
  | allocate (kind : Kind)
  | clone (x : Holder)
  | drop (x : Holder)
  | touch (h : Handle) (t : Touch)
  | addCollector (step : Nat)
  | register (g : CollectorId) (x : Holder)
  | get (g : CollectorId) (kind : Kind) (h : Handle)
  | getObject (g : CollectorId) (h : Handle)
  | cleanup (g : CollectorId)
  | stop (g : CollectorId)
  | resume (g : CollectorId)
  | setStep (g : CollectorId) (n : Nat)
  | retire (g : CollectorId)
  | release (q : QueueId)
  | close (q : QueueId)
  | registryInsert (r : RegistryId) (x : Holder)
  | registryErase (r : RegistryId) (h : Handle)
  | registryRetain (r : RegistryId) (keep : Handle → Bool)
  /-- Something is reported, or what was reported is taken away. -/
  | report (events : List Event)

namespace Heap

/-- The application can reach a holder to clone `x` from: its own, or a slot of a bare registry. A slot
that is going away is none, so runs in which a `Drop` clones its own dying base are not legal. -/
def Cloneable (w : Heap) (x : Holder) : Prop :=
  match x.view with
  | .whole => 0 < w.held.count x ∨ ∃ r ∈ w.registries, r.slot? x.handle = some x
  | .base => 0 < w.heldCount x.handle ∨ ∃ r ∈ w.registries, r.contains x.handle = true

instance (w : Heap) (x : Holder) : Decidable (w.Cloneable x) := by
  unfold Cloneable
  cases x.view <;> infer_instance

end Heap

namespace Action

def Enabled (w : Heap) : Action → Prop
  | clone x => w.Cloneable x
  | register _ x => 2 ≤ w.held.count x
  | registryInsert _ x => 0 < w.held.count x
  | _ => True

instance (w : Heap) (a : Action) : Decidable (a.Enabled w) := by
  cases a <;> unfold Enabled <;> infer_instance

def perform (w : Heap) : Action → Heap
  | allocate kind => (w.allocate kind).2
  | clone x => w.hold x
  | drop x => w.letGo x
  | touch h t => w.setObject h (t.apply (w.object h))
  | addCollector step => (w.addCollector (.withStep step)).2
  | register g x => (w.register g x).2
  | get g kind h => ((w.lookup g kind h).map w.hold).getD w
  | getObject g h => ((w.lookupBase g h).map w.hold).getD w
  | cleanup g => (w.beginCleanup g).2
  | stop g => w.stop g
  | resume g => w.resume g
  | setStep g n => w.setStep g n
  | retire g => (w.retire g).2
  | release q => w.releaseNext q
  | close q => w.closeQueue q
  | registryInsert r x => (w.registryInsert r x).2
  | registryErase r h => (w.registryErase r h).2
  | registryRetain r keep => (w.registryRetain r keep).2
  | report events => { w with events }

/-- The collector whose lock an action takes. -/
def lock? : Action → Option CollectorId
  | register g _ | get g _ _ | getObject g _ | cleanup g | stop g | resume g | retire g => some g
  | _ => none

/-- The queue that an action closes. -/
def closes? : Action → Option QueueId
  | close q => some q
  | _ => none

/-- The queue that an action releases a slot of. -/
def releases? : Action → Option QueueId
  | release q => some q
  | _ => none

/-- The action runs a pass over collector `g`. -/
def PassesOver (w : Heap) (g : CollectorId) : Action → Prop
  | cleanup g' => g' = g ∧ (w.collector g).state ≠ .stopped
  | register g' _ => g' = g ∧ w.PassDue g
  | _ => False

/-- The statistics of the pass over `g` that an action runs. -/
def pass? (w : Heap) (g : CollectorId) : Action → Option PassStats
  | cleanup g' => if g' = g then (w.beginCleanup g).1.map (·.1) else none
  | register g' _ => if g' = g then (w.duePass g).1.map (·.1) else none
  | _ => none

theorem pass?_of_lock? {a : Action} {g : CollectorId} (w : Heap) (ha : a.lock? ≠ some g) :
    a.pass? w g = none := by
  cases a with
  | register g' x | cleanup g' => exact if_neg fun he => ha (congrArg some he)
  | _ => rfl

/-- The action registers an object in `g`, and is not refused. -/
def registers (w : Heap) (g : CollectorId) : Action → Bool
  | register g' x => g' = g && (w.register g x).1.isAccepted
  | _ => false

/-- The action tries to register in `g` what is registered there already. -/
def refuses (w : Heap) (g : CollectorId) : Action → Bool
  | register g' x => g' = g && !(w.register g x).1.isAccepted
  | _ => false

end Action

namespace Heap

/-- A heap with bare registries, all empty, and nothing else. -/
def initial (registries : Nat) : Heap := { registries := List.replicate registries .empty }

theorem length_perform_le (w : Heap) (a : Action) :
    w.collectors.length ≤ (a.perform w).collectors.length := by
  cases a with
  | register g x => exact Nat.le_of_eq (length_register w g x).symm
  | addCollector n => simp [Action.perform, addCollector]
  | cleanup g =>
    simp only [Action.perform, beginCleanup]
    split
    · exact Nat.le_refl _
    · simp [openQueue, runPass, endPass, beginPass, modifyCollector, emit, emitMarked]
  | get g kind k => simp only [Action.perform]; cases w.lookup g kind k <;> exact Nat.le_refl _
  | getObject g k => simp only [Action.perform]; cases w.lookupBase g k <;> exact Nat.le_refl _
  | registryErase r k => simp only [Action.perform, registryErase]; split <;> exact Nat.le_refl _
  | close q =>
    simp only [Action.perform, closeQueue]
    split
    · exact Nat.le_refl _
    · split <;> simp [finishPass, modifyCollector, emit]
  | stop g | resume g | setStep g n | retire g =>
    simp [Action.perform, stop, resume, setStep, retire, openQueue, modifyCollector, emit]
  | _ => exact Nat.le_refl _

/-- The heap after some actions. -/
def performs (w : Heap) : List Action → Heap
  | [] => w
  | a :: as => (a.perform w).performs as

/-- Each of the actions is enabled when its turn comes. -/
def Legal (w : Heap) : List Action → Prop
  | [] => True
  | a :: as => a.Enabled w ∧ (a.perform w).Legal as

instance decidableLegal (w : Heap) : (as : List Action) → Decidable (w.Legal as)
  | [] => isTrue trivial
  | a :: as =>
    have := decidableLegal (a.perform w) as
    inferInstanceAs (Decidable (a.Enabled w ∧ (a.perform w).Legal as))

theorem length_le_performs (w : Heap) (as : List Action) :
    w.collectors.length ≤ (w.performs as).collectors.length := by
  induction as generalizing w with
  | nil => exact Nat.le_refl _
  | cons a as ih => exact Nat.le_trans (length_perform_le w a) (ih (a.perform w))

theorem allocated_perform (w : Heap) (a : Action) :
    (a.perform w).allocated = w.allocated ∨
      (∃ kind, a = .allocate kind) ∧ (a.perform w).allocated = w.allocated + 1 := by
  cases a with
  | allocate kind => exact .inr ⟨⟨kind, rfl⟩, rfl⟩
  | register g x => exact .inl (register_frame w g x).2.2.1
  | cleanup g => exact .inl (beginCleanup_frame w g).2.2
  | get g kind k => simp only [Action.perform]; cases w.lookup g kind k <;> exact .inl rfl
  | getObject g k => simp only [Action.perform]; cases w.lookupBase g k <;> exact .inl rfl
  | registryErase r k =>
    simp only [Action.perform, registryErase]
    split <;> exact .inl rfl
  | close q => exact .inl (closeQueue_frame w q).2.2
  | _ => exact .inl rfl

theorem allocated_le_performs (w : Heap) (as : List Action) :
    w.allocated ≤ (w.performs as).allocated := by
  induction as generalizing w with
  | nil => exact Nat.le_refl _
  | cons a as ih =>
    have hstep : w.allocated ≤ (a.perform w).allocated := by
      rcases allocated_perform w a with he | ⟨-, he⟩ <;> omega
    exact Nat.le_trans hstep (ih (a.perform w))

theorem performs_append (w : Heap) (as bs : List Action) :
    w.performs (as ++ bs) = (w.performs as).performs bs := by
  induction as generalizing w with
  | nil => rfl
  | cons a as ih => exact ih (a.perform w)

theorem legal_append (w : Heap) (as bs : List Action) :
    w.Legal (as ++ bs) ↔ w.Legal as ∧ (w.performs as).Legal bs := by
  induction as generalizing w with
  | nil => simp [Legal, performs]
  | cons a as ih => simp [Legal, performs, ih, and_assoc]

/-- What every enabled action keeps, every run keeps. -/
theorem Legal.invariant {I : Heap → Prop}
    (step : ∀ w (a : Action), a.Enabled w → I w → I (a.perform w)) {w : Heap} {as : List Action}
    (hl : w.Legal as) (hi : I w) : I (w.performs as) := by
  induction as generalizing w with
  | nil => exact hi
  | cons a as ih => exact ih hl.2 (step w a hl.1 hi)

end Heap

end SharedHeap
