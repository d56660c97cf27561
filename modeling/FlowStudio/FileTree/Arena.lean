/-! Values under numbers of their own. A number that has been given out is never given out again,
also when its value is gone. -/

namespace FlowStudio

structure Arena (α : Type) where
  slots : Array (Option α)
  deriving DecidableEq, Repr

namespace Arena
variable {α : Type}

def empty : Arena α := ⟨#[]⟩

def next (a : Arena α) : Nat := a.slots.size

def get? (a : Arena α) (id : Nat) : Option α := a.slots[id]?.join

def value [Inhabited α] (a : Arena α) (id : Nat) : α := (a.get? id).getD default

def insert (a : Arena α) (value : α) : Arena α × Nat := (⟨a.slots.push (some value)⟩, a.next)

def modify (a : Arena α) (id : Nat) (change : α → α) : Arena α :=
  ⟨a.slots.modify id (·.map change)⟩

def erase (a : Arena α) (id : Nat) : Arena α := ⟨a.slots.setIfInBounds id none⟩

def values (a : Arena α) : List α := a.slots.toList.filterMap id

theorem get?_empty (id : Nat) : (empty : Arena α).get? id = none := rfl

theorem get?_insert (a : Arena α) (v : α) (id : Nat) :
    (a.insert v).1.get? id = if id = a.next then some v else a.get? id := by
  simp only [get?, insert, next, Array.getElem?_push]
  by_cases h : id = a.slots.size <;> simp [h]

theorem get?_modify (a : Arena α) (k : Nat) (change : α → α) (id : Nat) :
    (a.modify k change).get? id = if id = k then (a.get? id).map change else a.get? id := by
  simp only [get?, modify, Array.getElem?_modify]
  by_cases h : k = id
  · subst h
    cases a.slots[k]? <;> simp
  · simp [h, Ne.symm h]

theorem get?_erase (a : Arena α) (k id : Nat) :
    (a.erase k).get? id = if id = k then none else a.get? id := by
  simp only [get?, erase, Array.getElem?_setIfInBounds]
  grind

theorem lt_next {a : Arena α} {id : Nat} {v : α} (h : a.get? id = some v) : id < a.next := by
  apply Nat.lt_of_not_le
  intro hle
  simp [get?, Array.getElem?_eq_none hle] at h

theorem ne_next {a : Arena α} {id : Nat} {v : α} (h : a.get? id = some v) : id ≠ a.next :=
  Nat.ne_of_lt (lt_next h)

theorem get?_next (a : Arena α) : a.get? a.next = none := by
  simp [get?, next]

theorem value_eq [Inhabited α] {a : Arena α} {id : Nat} {v : α} (h : a.get? id = some v) :
    a.value id = v := by
  rw [value, h]
  rfl

theorem mem_values_iff {a : Arena α} {v : α} : v ∈ a.values ↔ ∃ id, a.get? id = some v := by
  simp [values, get?, Array.mem_iff_getElem?, Option.join_eq_some_iff]

theorem pairwise_values {a : Arena α} {R : α → α → Prop}
    (h : ∀ {i j v w}, i ≠ j → a.get? i = some v → a.get? j = some w → R v w) :
    a.values.Pairwise R := by
  rw [values, List.pairwise_filterMap, List.pairwise_iff_getElem]
  intro i j hi hj hlt v hv w hw
  have hget : ∀ {k} (hk : k < a.slots.toList.length) {x}, a.slots.toList[k] = some x →
      a.get? k = some x := by
    intro k hk x hx
    rw [Array.length_toList] at hk
    simpa [get?, hk] using hx
  exact h (Nat.ne_of_lt hlt) (hget hi hv) (hget hj hw)

end Arena
end FlowStudio
