import BuildProbe.Environment
import BuildProbe.Probe.Launch

/-!
What a name is worth in an environment. A variable that is set gives its name a value and leaves
every other name alone, so of several that are set the last one of a name counts. What a child
process receives are texts. It looks a name up in them, and it finds what was set, as long as the
name can be told from the value: a name without an equals sign behind its first character can.
-/
namespace BuildProbe.Environment

def assigned? (name : String) (text : List Char) : Option String :=
  (Text.after? (name.toList ++ ['=']) text).map String.ofList

/- Of several texts, the last one that gives a value to a name counts. -/
def lastAssigned? (name : String) (texts : List (List Char)) : Option String :=
  texts.reverse.findSome? (assigned? name)

structure Askable (name : String) : Prop where
  filled : name ≠ ""
  plain : '=' ∉ name.toList

/- A name that ends, in the text of its variable, where it is seen to end. -/
def Separable (name : String) : Prop := ∃ c cs, name.toList = c :: cs ∧ '=' ∉ cs

section

variable {name other value : String}

theorem askableParts (askable : Askable name) :
    ∃ c cs, name.toList = c :: cs ∧ c ≠ '=' ∧ '=' ∉ cs := by
  have plain := askable.plain
  cases parts : name.toList with
  | nil => exact absurd (String.toList_eq_nil_iff.mp parts) askable.filled
  | cons c cs =>
    rw [parts] at plain
    simp only [List.mem_cons, not_or] at plain
    exact ⟨c, cs, rfl, Ne.symm plain.1, plain.2⟩

theorem askableSeparable (askable : Askable name) : Separable name := by
  obtain ⟨c, cs, parts, _, plain⟩ := askableParts askable
  exact ⟨c, cs, parts, plain⟩

theorem assignedSome {text : List Char} :
    assigned? name text = some value ↔ text = Environment.text (name, value) := by
  simp only [assigned?, Option.map_eq_some_iff, Text.afterSome, Environment.text]
  constructor
  · rintro ⟨rest, rfl, rfl⟩
    simp
  · rintro rfl
    exact ⟨value.toList, by simp, by simp⟩

theorem equalsFirst (cs : List Char) :
    ('=' ∉ cs ∧ cs.dropWhile (· != '=') = []) ∨
      ∃ rest, cs.dropWhile (· != '=') = '=' :: rest ∧
        cs = cs.takeWhile (· != '=') ++ '=' :: rest ∧ '=' ∉ cs.takeWhile (· != '=') := by
  induction cs with
  | nil => exact .inl ⟨List.not_mem_nil, rfl⟩
  | cons c cs ih =>
    by_cases equals : c = '='
    · subst equals
      exact .inr ⟨cs, rfl, rfl, List.not_mem_nil⟩
    · have other : (c != '=') = true := by simpa using equals
      rw [List.dropWhile_cons_of_pos (p := (· != '=')) other,
        List.takeWhile_cons_of_pos (p := (· != '=')) other]
      rcases ih with ⟨missing, ends⟩ | ⟨rest, found, whole, before⟩
      · exact .inl ⟨by simp [missing, Ne.symm equals], ends⟩
      · exact .inr ⟨rest, found, congrArg (c :: ·) whole, by simp [before, Ne.symm equals]⟩

theorem splitEquals {cs ds rest rest' : List Char} (plain : '=' ∉ cs) (plain' : '=' ∉ ds)
    (same : cs ++ '=' :: rest = ds ++ '=' :: rest') : cs = ds ∧ rest = rest' := by
  induction cs generalizing ds with
  | nil =>
    cases ds with
    | nil => exact ⟨rfl, (List.cons.inj same).2⟩
    | cons d ds => exact absurd ((List.cons.inj same).1 ▸ List.mem_cons_self) plain'
  | cons c cs ih =>
    cases ds with
    | nil => exact absurd ((List.cons.inj same).1 ▸ List.mem_cons_self) plain
    | cons d ds =>
      obtain ⟨first, later⟩ := List.cons.inj same
      obtain ⟨rfl, ends⟩ := ih (fun member => plain (List.mem_cons_of_mem _ member))
        (fun member => plain' (List.mem_cons_of_mem _ member)) later
      exact ⟨by rw [first], ends⟩

theorem assignedText (askable : Askable name) (separable : Separable other) :
    assigned? name (text (other, value)) = if other = name then some value else none := by
  split
  · rename_i same
    subst same
    exact assignedSome.mpr rfl
  · rename_i different
    cases found : assigned? name (text (other, value)) with
    | none => rfl
    | some found' =>
      obtain ⟨c, cs, parts, _, plain⟩ := askableParts askable
      obtain ⟨d, ds, parts', plain'⟩ := separable
      have same := assignedSome.mp found
      simp only [text, parts, parts', List.cons_append] at same
      obtain ⟨first, later⟩ := List.cons.inj same
      obtain ⟨rest, _⟩ := splitEquals plain' plain later
      exact absurd (String.toList_inj.mp (by rw [parts, parts', first, rest])) different

theorem ofTextSome {cs : List Char} {w : String × String} (taken : ofText? cs = some w) :
    cs = text w ∧ Separable w.1 := by
  cases cs with
  | nil => cases taken
  | cons c cs =>
    simp only [ofText?] at taken
    rcases equalsFirst cs with ⟨_, ends⟩ | ⟨rest, found, whole, before⟩
    · rw [ends] at taken
      cases taken
    · rw [found] at taken
      cases taken
      refine ⟨?_, c, _, String.toList_ofList, before⟩
      simp only [text, String.toList_ofList, List.cons_append, ← whole]

theorem ofTextNone (askable : Askable name) {cs : List Char} (taken : ofText? cs = none) :
    assigned? name cs = none := by
  cases found : assigned? name cs with
  | none => rfl
  | some value =>
    obtain ⟨c, ds, parts, _, plain⟩ := askableParts askable
    have same := assignedSome.mp found
    simp only [text, parts, List.cons_append] at same
    rw [same] at taken
    simp only [ofText?] at taken
    rcases equalsFirst (ds ++ '=' :: value.toList) with ⟨missing, _⟩ | ⟨rest, found, _⟩
    · exact absurd (List.mem_append_right _ List.mem_cons_self) missing
    · rw [found] at taken
      cases taken

/-! ## Setting variables -/

theorem placedValue (name value other : String) (vars : List (String × String)) :
    ((placeVariable name value vars).find? (·.1 = other)).map (·.2) =
      if name = other then some value else (vars.find? (·.1 = other)).map (·.2) := by
  induction vars with
  | nil => by_cases same : name = other <;> simp [placeVariable, same]
  | cons w rest ih =>
    obtain ⟨n, v⟩ := w
    simp only [placeVariable]
    split
    · by_cases same : name = other <;> simp [same]
    · split
      · rename_i own
        subst own
        by_cases same : name = other <;> simp [same]
      · rename_i apart
        by_cases here : n = other
        · subst here
          simp [apart]
        · simp only [List.find?_cons, here, decide_false]
          exact ih

theorem getSet (e : Environment) (name value other : String) :
    (e.set name value).get? other = if name = other then some value else e.get? other :=
  placedValue name value other e.vars

def lastOf? (vars : List (String × String)) (name : String) : Option String :=
  (vars.reverse.find? (·.1 = name)).map (·.2)

theorem lastOfCons (w : String × String) (rest : List (String × String)) (name : String) :
    lastOf? (w :: rest) name = (lastOf? rest name).or (if w.1 = name then some w.2 else none) := by
  simp only [lastOf?, List.reverse_cons, List.find?_append, List.find?_singleton]
  cases rest.reverse.find? (·.1 = name) with
  | some found => rfl
  | none => by_cases same : w.1 = name <;> simp [same]

theorem getSetAll (e : Environment) (vars : List (String × String)) (name : String) :
    (e.setAll vars).get? name = (lastOf? vars name).or (e.get? name) := by
  induction vars generalizing e with
  | nil => rfl
  | cons w rest ih =>
    have first : e.setAll (w :: rest) = (e.set w.1 w.2).setAll rest := rfl
    rw [first, ih, getSet, lastOfCons, Option.or_assoc]
    by_cases same : w.1 = name <;> simp [same]

theorem lastOfOrdered {vars : List (String × String)} (ordered : Ordered vars) (name : String) :
    lastOf? vars name = (vars.find? (·.1 = name)).map (·.2) := by
  induction vars with
  | nil => rfl
  | cons w rest ih =>
    obtain ⟨first, later⟩ := List.pairwise_cons.mp ordered
    rw [lastOfCons, ih later]
    by_cases same : w.1 = name
    · subst same
      have absent : rest.find? (·.1 = w.1) = none := by
        refine List.find?_eq_none.mpr fun v member own => ?_
        have own : v.1 = w.1 := by simpa using own
        exact String.lt_irrefl w.1 (own ▸ first v member)
      simp [absent]
    · simp [same]

theorem getOverride (e overrides : Environment) (name : String) :
    (e.override overrides).get? name = (overrides.get? name).or (e.get? name) := by
  rw [override, getSetAll, lastOfOrdered overrides.ordered]
  rfl

theorem setAllVars {e : Environment} {vars : List (String × String)} {w : String × String}
    (member : w ∈ (e.setAll vars).vars) : w ∈ vars ∨ w ∈ e.vars := by
  induction vars generalizing e with
  | nil => exact .inr member
  | cons first rest ih =>
    have step : e.setAll (first :: rest) = (e.set first.1 first.2).setAll rest := rfl
    rw [step] at member
    rcases ih member with later | before
    · exact .inl (List.mem_cons_of_mem _ later)
    · rcases placedNames before with own | old
      · exact .inl (own ▸ List.mem_cons_self)
      · exact .inr old

/-! ## Texts received -/

theorem receivedSeparable {e : Environment} {w : String × String} (member : w ∈ e.received.vars) :
    Separable w.1 := by
  rcases setAllVars member with taken | old
  · obtain ⟨v, _, taken⟩ := List.mem_filterMap.mp taken
    exact (ofTextSome taken).2
  · cases old

theorem getReceived (e : Environment) {name : String} (askable : Askable name) :
    e.received.get? name = lastAssigned? name (e.vars.map text) := by
  rw [received, ofList, getSetAll, lastOf?, ← List.filterMap_reverse, lastAssigned?,
    ← List.map_reverse]
  generalize e.vars.reverse = vars
  rw [show empty.get? name = none from rfl, Option.or_none]
  induction vars with
  | nil => rfl
  | cons w rest ih =>
    rw [List.filterMap_cons, List.map_cons, List.findSome?_cons]
    cases taken : ofText? (text w) with
    | none =>
      rw [Function.comp, taken, ofTextNone askable taken]
      exact ih
    | some v =>
      obtain ⟨same, separable⟩ := ofTextSome taken
      rw [Function.comp, taken, same, assignedText askable separable]
      by_cases own : v.1 = name
      · simp [own]
      · simp only [List.find?_cons, own, decide_false, if_false]
        exact ih

theorem foundSeparable {vars : List (String × String)} (separable : ∀ w ∈ vars, Separable w.1)
    {name : String} (askable : Askable name) :
    vars.findSome? (fun w => assigned? name (text w)) = (vars.find? (·.1 = name)).map (·.2) := by
  induction vars with
  | nil => rfl
  | cons w rest ih =>
    rw [List.findSome?_cons, assignedText askable (separable w List.mem_cons_self)]
    by_cases own : w.1 = name
    · simp [own]
    · simp only [List.find?_cons, own, decide_false, if_false]
      exact ih fun v member => separable v (List.mem_cons_of_mem _ member)

theorem seenSeparable {e : Environment} (separable : ∀ w ∈ e.vars, Separable w.1) {name : String}
    (askable : Askable name) : e.seen? name = e.get? name := by
  rw [seen?, if_neg askable.filled]
  exact foundSeparable separable askable

theorem lastSeparable {vars : List (String × String)} (separable : ∀ w ∈ vars, Separable w.1)
    {name : String} (askable : Askable name) :
    lastAssigned? name (vars.map text) = lastOf? vars name := by
  rw [lastOf?, lastAssigned?, ← List.map_reverse, List.findSome?_map]
  exact foundSeparable (fun w member => separable w (List.mem_reverse.mp member)) askable

theorem lastUnique {e : Environment} (separable : ∀ w ∈ e.vars, Separable w.1) {name : String}
    (askable : Askable name) : lastAssigned? name (e.vars.map text) = e.get? name :=
  (lastSeparable separable askable).trans (lastOfOrdered e.ordered name)

end

end BuildProbe.Environment
