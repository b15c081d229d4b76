import SharedHeap.Object

/-!
Tables. A value that refers to an object is stored as its handle and adds a link, never a holder.
Setting an entry takes three steps, each of which other threads may see: the link of the new value
is recorded, the entry is put in place, and the link of the value it displaced is forgotten. So a
visible entry always has its link.
-/

namespace SharedHeap.Object

/-- First step of a set: records the link that `v` needs. -/
def recordValue (o : Object) (v : Value) : Object :=
  match v.object? with
  | some h => o.link h
  | none => o

/-- Second step of a set: puts the entry in place and returns the value that it displaced. -/
def putEntry (o : Object) (k : Key) (v : Value) : Option Value × Object :=
  (o.entries[k]?, { o with entries := o.entries.insert k v })

/-- First step of a removal: takes the entry out and returns its value. -/
def takeEntry (o : Object) (k : Key) : Option Value × Object :=
  (o.entries[k]?, { o with entries := o.entries.erase k })

/-- Last step of both: forgets the link of a displaced value. -/
def forgetValue (o : Object) (v : Option Value) : Object :=
  match v.bind Value.object? with
  | some h => o.unlink h
  | none => o

/-- Stores `v` under `k` and returns the value it replaces. -/
def set (o : Object) (k : Key) (v : Value) : Option Value × Object :=
  let (previous, o) := (o.recordValue v).putEntry k v
  (previous, o.forgetValue previous)

/-- Removes the entry of `k` and returns its value. -/
def remove (o : Object) (k : Key) : Option Value × Object :=
  let (previous, o) := o.takeEntry k
  (previous, o.forgetValue previous)

def get? (o : Object) (k : Key) : Option Value := o.entries[k]?

def keys (o : Object) : List Key := o.entries.keys

@[simp] theorem entries_link (o : Object) (h : Handle) : (o.link h).entries = o.entries := by
  unfold link; split <;> rfl

@[simp] theorem entries_recordValue (o : Object) (v : Value) :
    (o.recordValue v).entries = o.entries := by
  unfold recordValue; split <;> simp

@[simp] theorem entries_forgetValue (o : Object) (v : Option Value) :
    (o.forgetValue v).entries = o.entries := by
  unfold forgetValue; split <;> rfl

@[simp] theorem entries_set (o : Object) (k : Key) (v : Value) :
    (o.set k v).2.entries = o.entries.insert k v := by
  simp [set, putEntry]

@[simp] theorem entries_remove (o : Object) (k : Key) :
    (o.remove k).2.entries = o.entries.erase k := by
  simp [remove, takeEntry]

/-- What was set is what is found. -/
theorem get?_set (o : Object) (k : Key) (v : Value) : (o.set k v).2.get? k = some v := by
  simp [get?]

theorem get?_set_of_ne (o : Object) {k k' : Key} (hk : k' ≠ k) (v : Value) :
    (o.set k' v).2.get? k = o.get? k := by
  rw [get?, entries_set, Std.ExtTreeMap.getElem?_insert, if_neg (by simpa using hk)]
  rfl

theorem get?_remove_of_ne (o : Object) {k k' : Key} (hk : k' ≠ k) :
    (o.remove k').2.get? k = o.get? k := by
  rw [get?, entries_remove, Std.ExtTreeMap.getElem?_erase, if_neg (by simpa using hk)]
  rfl

/-- Setting and removing answer with the value found before. -/
theorem fst_set (o : Object) (k : Key) (v : Value) : (o.set k v).1 = o.get? k := by
  simp [set, putEntry, get?]

theorem fst_remove (o : Object) (k : Key) : (o.remove k).1 = o.get? k := rfl

end SharedHeap.Object
