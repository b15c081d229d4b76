import SharedHeap.Proofs.Action

/-! # Sequential runs

Where no other thread comes between its steps, a call on a table is one operation. A sequential run
is made of operations: whole calls, and actions that are not steps of calls. Initialisers, hosts and
hooks run between operations, and never within one. -/

namespace SharedHeap

/-- The action is a step of a call on a table. -/
def Action.isCallStep : Action → Bool
  | .touch _ (.recordValue _) | .touch _ (.putEntry _ _) | .touch _ (.takeEntry _)
  | .touch _ (.forgetValue _) => true
  | _ => false

/-- What a single thread does at once. -/
inductive Operation where
  | action (a : Action)
  | set (t : Handle) (k : Key) (v : Value)
  | remove (t : Handle) (k : Key)

namespace Operation

/-- The steps of a call do not stand alone. -/
def Enabled (w : Heap) : Operation → Prop
  | action a => a.Enabled w ∧ a.isCallStep = false
  | set _ _ _ | remove _ _ => True

instance (w : Heap) (o : Operation) : Decidable (o.Enabled w) := by
  cases o <;> unfold Enabled <;> infer_instance

def perform (w : Heap) : Operation → Heap
  | action a => a.perform w
  | set t k v => (w.setEntry t k v).2
  | remove t k => (w.removeEntry t k).2

/-- The actions that an operation consists of. -/
def actions (w : Heap) : Operation → List Action
  | action a => [a]
  | set t k v =>
    [.touch t (.recordValue v), .touch t (.putEntry k v), .touch t (.forgetValue (w.setEntry t k v).1)]
  | remove t k => [.touch t (.takeEntry k), .touch t (.forgetValue (w.removeEntry t k).1)]

end Operation

namespace Heap

theorem object_setObject (w : Heap) (h : Handle) (o : Object) : (w.setObject h o).object h = o := by
  simp [object, setObject]

theorem object_setObject_of_ne (w : Heap) {h k : Handle} (hk : k ≠ h) (o : Object) :
    (w.setObject h o).object k = w.object k := by
  have hk : h ≠ k := fun he => hk he.symm
  simp [object, setObject, Std.ExtTreeMap.getElem?_insert, hk]

theorem setObject_setObject (w : Heap) (h : Handle) (o o' : Object) :
    (w.setObject h o).setObject h o' = w.setObject h o' := by
  have hinsert : (w.objects.insert h o).insert h o' = w.objects.insert h o' := by
    ext k : 1
    simp only [Std.ExtTreeMap.getElem?_insert]
    split <;> rfl
  simp only [setObject, hinsert]

/-- An operation is what its actions do. -/
theorem performs_actions (w : Heap) (o : Operation) : w.performs (o.actions w) = o.perform w := by
  cases o with
  | action a => rfl
  | set t k v =>
    simp only [Operation.actions, performs, Action.perform, object_setObject, setObject_setObject]
    rfl
  | remove t k =>
    simp only [Operation.actions, performs, Action.perform, object_setObject, setObject_setObject]
    rfl

theorem legal_actions {w : Heap} {o : Operation} (he : o.Enabled w) : w.Legal (o.actions w) := by
  cases o with
  | action a => exact ⟨he.1, trivial⟩
  | set t k v => exact ⟨trivial, trivial, trivial, trivial⟩
  | remove t k => exact ⟨trivial, trivial, trivial⟩

/-- The heap after some operations. -/
def operates (w : Heap) : List Operation → Heap
  | [] => w
  | o :: os => (o.perform w).operates os

/-- Each of the operations is enabled when its turn comes. -/
def Sequential (w : Heap) : List Operation → Prop
  | [] => True
  | o :: os => o.Enabled w ∧ (o.perform w).Sequential os

instance decidableSequential (w : Heap) : (os : List Operation) → Decidable (w.Sequential os)
  | [] => isTrue trivial
  | o :: os =>
    have := decidableSequential (o.perform w) os
    inferInstanceAs (Decidable (o.Enabled w ∧ (o.perform w).Sequential os))

theorem operates_append (w : Heap) (os ps : List Operation) :
    w.operates (os ++ ps) = (w.operates os).operates ps := by
  induction os generalizing w with
  | nil => rfl
  | cons o os ih => exact ih (o.perform w)

theorem sequential_append (w : Heap) (os ps : List Operation) :
    w.Sequential (os ++ ps) ↔ w.Sequential os ∧ (w.operates os).Sequential ps := by
  induction os generalizing w with
  | nil => simp [Sequential, operates]
  | cons o os ih => simp [Sequential, operates, ih, and_assoc]

/-- All actions of a sequential run. -/
def actionsOf (w : Heap) : List Operation → List Action
  | [] => []
  | o :: os => o.actions w ++ (o.perform w).actionsOf os

theorem actionsOf_append (w : Heap) (os ps : List Operation) :
    w.actionsOf (os ++ ps) = w.actionsOf os ++ (w.operates os).actionsOf ps := by
  induction os generalizing w with
  | nil => rfl
  | cons o os ih => simp only [List.cons_append, actionsOf, operates, ih, List.append_assoc]

theorem performs_actionsOf (w : Heap) (os : List Operation) :
    w.performs (w.actionsOf os) = w.operates os := by
  induction os generalizing w with
  | nil => rfl
  | cons o os ih => rw [actionsOf, performs_append, performs_actions, ih, operates]

/-- A sequential run is a legal run. -/
theorem Sequential.legal {w : Heap} {os : List Operation} (hs : w.Sequential os) :
    w.Legal (w.actionsOf os) := by
  induction os generalizing w with
  | nil => trivial
  | cons o os ih =>
    rw [actionsOf, legal_append, performs_actions]
    exact ⟨legal_actions hs.1, ih hs.2⟩

end Heap

end SharedHeap
