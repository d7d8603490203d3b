/-! A store keeps one entry for each name, in the order in which the names were first bound. Binding
a known name replaces its entry. -/

namespace Bhasha

structure Store (α : Type) where
  entries : List (String × α)

namespace Store

variable {α : Type}

def empty : Store α := ⟨[]⟩

def find? (s : Store α) (name : String) : Option α := s.entries.lookup name

def insertEntry (name : String) (a : α) : List (String × α) → List (String × α)
  | [] => [(name, a)]
  | (n, b) :: rest => if n = name then (name, a) :: rest else (n, b) :: insertEntry name a rest

def insert (s : Store α) (name : String) (a : α) : Store α := ⟨insertEntry name a s.entries⟩

def erase (s : Store α) (name : String) : Store α := ⟨s.entries.filter (·.1 ≠ name)⟩

@[simp] theorem find?_empty (name : String) : (empty : Store α).find? name = none := rfl

theorem find?_insert (s : Store α) (name other : String) (a : α) :
    (s.insert name a).find? other = if other = name then some a else s.find? other := by
  obtain ⟨entries⟩ := s
  simp only [find?, insert]
  induction entries with
  | nil => simp [insertEntry, List.lookup_cons]; grind
  | cons e rest ih => obtain ⟨n, b⟩ := e; simp only [insertEntry]; grind

/-- What holds of all entries and of a new one holds of all entries afterwards. -/
theorem forall_insert {p : String → α → Prop} {s : Store α} {name : String} {a : α}
    (h : ∀ n b, s.find? n = some b → p n b) (ha : p name a) :
    ∀ n b, (s.insert name a).find? n = some b → p n b := by
  intro n b hb
  rw [find?_insert] at hb
  split at hb
  · next hn =>
    cases hb
    rwa [hn]
  · exact h n b hb

theorem find?_erase (s : Store α) (name other : String) :
    (s.erase name).find? other = if other = name then none else s.find? other := by
  obtain ⟨entries⟩ := s
  simp only [find?, erase]
  induction entries with
  | nil => simp
  | cons e rest ih => obtain ⟨n, b⟩ := e; simp only [List.filter_cons]; grind

end Store

end Bhasha
