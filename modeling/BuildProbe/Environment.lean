import BuildProbe.Text.Lines
/-!
Environments: variables with their values, one value a name, in increasing order of names. Names
are ordered by code point, which for their UTF-8 bytes is the same. A child process receives each
variable as one text, name and value joined by an equals sign, and it may take the text apart at
another place than it was joined.
-/
namespace BuildProbe

def placeVariable (name value : String) : List (String × String) → List (String × String)
  | [] => [(name, value)]
  | (n, v) :: rest =>
    if name < n then (name, value) :: (n, v) :: rest
    else if name = n then (name, value) :: rest
    else (n, v) :: placeVariable name value rest

def Ordered (vars : List (String × String)) : Prop := vars.Pairwise fun a b => a.1 < b.1

theorem placedNames {name value : String} {vars : List (String × String)} {e : String × String}
    (h : e ∈ placeVariable name value vars) : e = (name, value) ∨ e ∈ vars := by
  induction vars with
  | nil => simpa [placeVariable] using h
  | cons w rest ih =>
    obtain ⟨n, v⟩ := w
    simp only [placeVariable] at h
    split at h
    · simpa using h
    · split at h
      · rcases List.mem_cons.mp h with h | h
        · exact .inl h
        · exact .inr (List.mem_cons_of_mem _ h)
      · rcases List.mem_cons.mp h with h | h
        · exact .inr (by simp [h])
        · rcases ih h with h | h
          · exact .inl h
          · exact .inr (List.mem_cons_of_mem _ h)

theorem placedOrdered (name value : String) {vars : List (String × String)}
    (ordered : Ordered vars) : Ordered (placeVariable name value vars) := by
  induction vars with
  | nil => simp [Ordered, placeVariable]
  | cons w rest ih =>
    obtain ⟨n, v⟩ := w
    obtain ⟨first, later⟩ := List.pairwise_cons.mp ordered
    simp only [placeVariable]
    split
    · rename_i less
      refine List.pairwise_cons.mpr ⟨?_, ordered⟩
      intro e he
      rcases List.mem_cons.mp he with rfl | he
      · exact less
      · exact String.lt_trans less (first e he)
    · rename_i notLess
      split
      · rename_i same
        subst same
        exact List.pairwise_cons.mpr ⟨first, later⟩
      · rename_i different
        refine List.pairwise_cons.mpr ⟨?_, ih later⟩
        intro e he
        rcases placedNames he with rfl | he
        · exact Std.lt_of_le_of_ne (String.not_lt.mp notLess) (Ne.symm different)
        · exact first e he

structure Environment where
  vars : List (String × String)
  ordered : Ordered vars

namespace Environment

instance : DecidableEq Environment := fun a b =>
  if h : a.vars = b.vars then
    .isTrue (by cases a; cases b; cases h; rfl)
  else .isFalse fun e => h (e ▸ rfl)

def empty : Environment := ⟨[], .nil⟩

def set (e : Environment) (name value : String) : Environment :=
  ⟨placeVariable name value e.vars, placedOrdered name value e.ordered⟩

def setAll (e : Environment) (vars : List (String × String)) : Environment :=
  vars.foldl (fun e w => e.set w.1 w.2) e

def ofList (vars : List (String × String)) : Environment := empty.setAll vars

def unset (e : Environment) (name : String) : Environment :=
  ⟨e.vars.filter (·.1 != name), e.ordered.filter _⟩

def get? (e : Environment) (name : String) : Option String :=
  (e.vars.find? (·.1 = name)).map (·.2)

def override (e overrides : Environment) : Environment := e.setAll overrides.vars

def text (w : String × String) : List Char := w.1.toList ++ '=' :: w.2.toList

/-- What a child process finds under `name`: the value in the first text it received that is the
name, an equals sign and a value. Nothing is found under no name at all. -/
def seen? (e : Environment) (name : String) : Option String :=
  if name = "" then none
  else e.vars.findSome? fun w =>
    (Text.after? (name.toList ++ ['=']) (text w)).map String.ofList

/-- A text as a variable. The name has at least one character, whatever that is, and ends before
the next equals sign. -/
def ofText? : List Char → Option (String × String)
  | [] => none
  | c :: cs =>
    match cs.dropWhile (· != '=') with
    | [] => none
    | _ :: value => some (String.ofList (c :: cs.takeWhile (· != '=')), String.ofList value)

/-- The variables that a child process makes of the texts it received, to hand them on. -/
def received (e : Environment) : Environment := ofList (e.vars.filterMap (ofText? ∘ text))

end Environment
end BuildProbe
