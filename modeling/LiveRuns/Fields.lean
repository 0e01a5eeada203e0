/-
Named fields in the order of their names.

`Fields α` is a finite map from names to values, kept as a list that ascends strictly by name.  A
map then has one form only: two maps are equal exactly when their lists are, and writing a map out
in order needs no sorting.  Names are compared by code points, which is also the order of their
UTF-8 bytes.
-/

namespace LiveRuns

/-- Put a field into a list that ascends by name, in its place or in place of the old value. -/
def putField {α : Type} (name : String) (value : α) : List (String × α) → List (String × α)
  | [] => [(name, value)]
  | (n, v) :: rest =>
    if name < n then (name, value) :: (n, v) :: rest
    else if name = n then (name, value) :: rest
    else (n, v) :: putField name value rest

def Ascending {α : Type} (entries : List (String × α)) : Prop :=
  entries.Pairwise fun a b => a.1 < b.1

theorem name_mem_putField {α : Type} {name : String} {value : α} {entries : List (String × α)}
    {e : String × α} (h : e ∈ putField name value entries) :
    e.1 = name ∨ e ∈ entries := by
  induction entries with
  | nil => simp_all [putField]
  | cons f rest ih =>
    obtain ⟨n, v⟩ := f
    simp only [putField] at h
    split at h
    · rcases List.mem_cons.1 h with rfl | h
      · exact .inl rfl
      · exact .inr h
    · split at h
      · rcases List.mem_cons.1 h with rfl | h
        · exact .inl rfl
        · exact .inr (List.mem_cons_of_mem _ h)
      · rcases List.mem_cons.1 h with rfl | h
        · exact .inr (List.mem_cons_self ..)
        · exact (ih h).imp id (List.mem_cons_of_mem _)

theorem ascending_putField {α : Type} (name : String) (value : α) {entries : List (String × α)}
    (h : Ascending entries) : Ascending (putField name value entries) := by
  induction entries with
  | nil => simp [putField, Ascending]
  | cons f rest ih =>
    obtain ⟨n, v⟩ := f
    obtain ⟨first, tail⟩ := List.pairwise_cons.1 h
    simp only [putField]
    split
    · rename_i lt
      refine List.pairwise_cons.2 ⟨fun e he => ?_, h⟩
      rcases List.mem_cons.1 he with rfl | he
      · exact lt
      · exact String.lt_trans lt (first e he)
    · split
      · rename_i eq
        exact List.pairwise_cons.2 ⟨fun e he => eq ▸ first e he, tail⟩
      · rename_i lt ne
        refine List.pairwise_cons.2 ⟨fun e he => ?_, ih tail⟩
        rcases name_mem_putField he with hn | he
        · show n < e.1
          rw [hn]
          exact Classical.byContradiction fun h' =>
            ne (String.le_antisymm (String.not_lt.1 h') (String.not_lt.1 lt))
        · exact first e he

structure Fields (α : Type) where
  entries : List (String × α)
  ascending : Ascending entries

namespace Fields

variable {α : Type}

def empty : Fields α := ⟨[], List.Pairwise.nil⟩

instance : Inhabited (Fields α) := ⟨empty⟩

def insert (fields : Fields α) (name : String) (value : α) : Fields α :=
  ⟨putField name value fields.entries, ascending_putField name value fields.ascending⟩

def get? (fields : Fields α) (name : String) : Option α := fields.entries.lookup name

/-- Set fields one after the other, so that the last value of a name stays. -/
def insertAll (fields : Fields α) (entries : List (String × α)) : Fields α :=
  entries.foldl (fun fields e => fields.insert e.1 e.2) fields

def ofList (entries : List (String × α)) : Fields α := empty.insertAll entries

/-- One map laid over another: the fields of the upper one win. -/
def overlay (lower upper : Fields α) : Fields α := lower.insertAll upper.entries

end Fields

end LiveRuns
