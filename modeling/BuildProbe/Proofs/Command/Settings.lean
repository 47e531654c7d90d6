import BuildProbe.Command.Arguments
import BuildProbe.Proofs.Environment.Values

/-!
What a command line says. It is a list of options with their values, each attached to its option or
in the next word. An accepted command line comes to what these settings come to one after another:
every `--env` is one variable more, and the target is what `--target` gives. The reading stops early
only at a word that asks for help or for the version, or at a misuse.
-/
namespace BuildProbe.Command

section

variable {ε ε' α β : Type} {x : Except ε α} {f : α → Except ε β}

theorem bindOk {b : β} : (x >>= f) = .ok b ↔ ∃ a, x = .ok a ∧ f a = .ok b := by
  cases x <;> simp [bind, Except.bind]

theorem bindError {e : ε} :
    (x >>= f) = .error e ↔ x = .error e ∨ ∃ a, x = .ok a ∧ f a = .error e := by
  cases x <;> simp [bind, Except.bind]

theorem mapErrorOk {g : ε → ε'} {a : α} : x.mapError g = .ok a ↔ x = .ok a := by
  cases x <;> constructor <;> intro same <;> cases same <;> rfl

theorem mapErrorError {g : ε → ε'} {e : ε'} :
    x.mapError g = .error e ↔ ∃ e', x = .error e' ∧ g e' = e := by
  constructor
  · intro failed
    cases x with
    | error e' => exact ⟨e', rfl, Except.error.inj failed⟩
    | ok a => cases failed
  · intro failed
    obtain ⟨e', rfl, rfl⟩ := failed
    rfl

end

def Word.option? : Word → Option (Key × Option String)
  | .long name attached => (Key.ofLong? name).map fun k => (k, attached)
  | .short ['o'] => some (.output, none)
  | .short ('o' :: '=' :: value) => some (.output, some (String.ofList value))
  | .short ('o' :: value) => some (.output, some (String.ofList value))
  | _ => none

/- The options of a command line with their values: what is attached, or else the next word. -/
def settings : List String → List (Key × String)
  | [] => []
  | word :: rest =>
    match (Word.of word).option? with
    | some (k, some value) => (k, value) :: settings rest
    | some (k, none) => rest.head?.toList.map (fun next => (k, next)) ++ settings rest
    | none => settings rest

def valuesOf (k : Key) (given : List (Key × String)) : List String :=
  given.filterMap fun s => if s.1 = k then some s.2 else none

def values (k : Key) (args : List String) : List String := valuesOf k (settings args)

def asks (word : String) : Bool :=
  match Word.of word with
  | .long name none => name = "help" || name = "version"
  | .short ('h' :: _) => true
  | .short ('V' :: _) => true
  | _ => false

def Given.addAll (g : Given) (given : List (Key × String)) : Except Misuse Given :=
  given.foldlM (fun g s => g.add s.1 s.2) g

theorem addAllAppend {g g' : Given} {first second : List (Key × String)}
    (added : g.addAll first = .ok g') : g.addAll (first ++ second) = g'.addAll second := by
  unfold Given.addAll at added ⊢
  rw [List.foldlM_append, added]
  rfl

namespace Reading

variable {r r' : Reading} {g : Given} {k : Key} {attached : Option String}

def owed (r : Reading) (words : List String) : List (Key × String) :=
  match r.pending with
  | none => []
  | some (k, none) => words.head?.toList.map fun next => (k, next)
  | some (k, some value) => [(k, value)]

theorem settleOwed (settled : r.settle = .ok g) (words : List String) :
    r.given.addAll (r.owed words) = .ok g := by
  unfold settle at settled
  unfold owed
  cases pending : r.pending with
  | none =>
    rw [pending] at settled
    cases settled
    rfl
  | some opened =>
    obtain ⟨k, attached⟩ := opened
    rw [pending] at settled
    cases attached with
    | none => cases settled
    | some value =>
      have added : r.given.add k value = .ok g := mapErrorOk.mp settled
      simp only [Given.addAll, List.foldlM_cons, List.foldlM_nil, added]
      rfl

theorem enterOk (entered : r.enter k attached = .ok r') :
    ∃ g, r.settle = .ok g ∧
      match attached with
      | none => r' = { r with given := g, pending := some (k, none) }
      | some value => ∃ g', g.add k value = .ok g' ∧
          r' = { r with given := g', pending := none } := by
  obtain ⟨g, settled, opened⟩ := bindOk.mp entered
  refine ⟨g, settled, ?_⟩
  cases attached with
  | none =>
    cases opened
    rfl
  | some value =>
    obtain ⟨g', added, same⟩ := bindOk.mp opened
    cases same
    exact ⟨g', mapErrorOk.mp added, rfl⟩

theorem enterSettings {word : String} {rest : List String}
    (option : (Word.of word).option? = some (k, attached)) (entered : r.enter k attached = .ok r')
    (later : r'.given.addAll (r'.owed rest ++ settings rest) = .ok g) :
    r.given.addAll (r.owed (word :: rest) ++ settings (word :: rest)) = .ok g := by
  obtain ⟨g', settled, opened⟩ := enterOk entered
  rw [addAllAppend (settleOwed settled _), settings, option]
  cases attached with
  | none =>
    rw [show r' = _ from opened] at later
    exact later
  | some value =>
    obtain ⟨g'', added, rfl⟩ := opened
    have first : g'.addAll [(k, value)] = .ok g'' := by
      simp only [Given.addAll, List.foldlM_cons, List.foldlM_nil, added]
      rfl
    have both : g'.addAll ([(k, value)] ++ settings rest) = g''.addAll (settings rest) :=
      addAllAppend first
    exact both.trans later

theorem stopFails {halt : Halt} : r.stop halt ≠ .ok r' := by
  intro stopped
  obtain ⟨_, _, thrown⟩ := bindOk.mp stopped
  cases thrown

theorem wordShort (word : String) : Word.of word ≠ .short [] := by
  unfold Word.of
  split
  · exact nofun
  · split <;> exact nofun
  · exact nofun
  · exact nofun

theorem wordReads {word : String} (step : r.word word = .ok r') :
    (∃ k attached, (Word.of word).option? = some (k, attached) ∧ r.enter k attached = .ok r') ∨
    (Word.of word).option? = none ∧
      (r' = { r with barred := true } ∨
        ∃ k, r.pending = some (k, none) ∧ r' = { r with pending := some (k, some word) }) := by
  have letters := wordShort word
  unfold Reading.word at step
  split at step
  · cases step
  · cases kind : Word.of word with
    | bar =>
      rw [kind] at step
      cases step
      exact .inr ⟨rfl, .inl rfl⟩
    | long name attached =>
      rw [kind] at step
      simp only [Reading.long] at step
      split at step
      · rename_i k option
        exact .inl ⟨k, attached, by rw [Word.option?, option]; rfl, step⟩
      · split at step
        · split at step
          · cases step
          · exact absurd step stopFails
        · cases step
    | short cs =>
      rw [kind] at step letters
      simp only [Reading.short] at step
      split at step
      · exact absurd rfl letters
      · exact .inl ⟨_, _, rfl, step⟩
      · exact .inl ⟨_, _, rfl, step⟩
      · rename_i value filled attached
        refine .inl ⟨_, _, ?_, step⟩
        rw [Word.option?]
        · intro bare
          cases bare
          exact filled rfl
        · intro rest equals
          cases equals
          exact attached rest rfl
      · exact absurd step stopFails
      · exact absurd step stopFails
      · cases step
    | plain =>
      rw [kind] at step
      simp only at step
      split at step
      · rename_i k pending
        cases step
        exact .inr ⟨rfl, .inr ⟨k, pending, rfl⟩⟩
      · cases step

theorem barredEnds {words : List String} (barred : r.barred = true)
    (read : r.words words = .ok r') : words = [] := by
  cases words with
  | nil => rfl
  | cons word rest => simp [Reading.words, Reading.word, barred, refuse, bind, Except.bind] at read

theorem wordsSettings {words : List String} (read : r.words words = .ok r')
    (settled : r'.settle = .ok g) : r.given.addAll (r.owed words ++ settings words) = .ok g := by
  induction words generalizing r with
  | nil =>
    cases read
    rw [settings, List.append_nil]
    exact settleOwed settled []
  | cons word rest ih =>
    obtain ⟨next, step, read⟩ := bindOk.mp read
    rcases wordReads step with ⟨k, attached, option, entered⟩ | ⟨option, rfl | ⟨k, pending, rfl⟩⟩
    · exact enterSettings option entered (ih read)
    · -- Behind a bar there are no more words, and what is owed is settled.
      cases barredEnds rfl read
      cases read
      rw [settings, option]
      exact addAllAppend (settleOwed (r := r) settled _)
    · have owed : r.owed (word :: rest) = [(k, word)] := by
        simp only [Reading.owed, pending]
        rfl
      rw [settings, option, owed]
      exact ih read

theorem settleHalts {halt : Halt} (stopped : r.settle = .error halt) : ∃ m, halt = .misuse m := by
  unfold settle at stopped
  split at stopped
  · cases stopped
  · cases stopped
    exact ⟨_, rfl⟩
  · obtain ⟨m, _, same⟩ := mapErrorError.mp stopped
    exact ⟨m, same.symm⟩

theorem enterHalts {halt : Halt} (stopped : r.enter k attached = .error halt) :
    ∃ m, halt = .misuse m := by
  rcases bindError.mp stopped with unsettled | ⟨g, _, opened⟩
  · exact settleHalts unsettled
  · cases attached with
    | none => cases opened
    | some value =>
      rcases bindError.mp opened with refused | ⟨_, _, same⟩
      · obtain ⟨m, _, same⟩ := mapErrorError.mp refused
        exact ⟨m, same.symm⟩
      · cases same

theorem wordHalts {word : String} {halt : Halt} (stopped : r.word word = .error halt) :
    (∃ m, halt = .misuse m) ∨ asks word = true := by
  unfold Reading.word at stopped
  split at stopped
  · cases stopped
    exact .inl ⟨_, rfl⟩
  · unfold asks
    cases kind : Word.of word with
    | bar =>
      rw [kind] at stopped
      cases stopped
    | long name attached =>
      rw [kind] at stopped
      simp only [Reading.long] at stopped
      split at stopped
      · exact .inl (enterHalts stopped)
      · split at stopped
        · rename_i asked
          cases attached with
          | none => exact .inr (by simpa using asked)
          | some value =>
            cases stopped
            exact .inl ⟨_, rfl⟩
        · cases stopped
          exact .inl ⟨_, rfl⟩
    | short cs =>
      rw [kind] at stopped
      simp only [Reading.short] at stopped
      split at stopped
      · cases stopped
      · exact .inl (enterHalts stopped)
      · exact .inl (enterHalts stopped)
      · exact .inl (enterHalts stopped)
      · exact .inr rfl
      · exact .inr rfl
      · cases stopped
        exact .inl ⟨_, rfl⟩
    | plain =>
      rw [kind] at stopped
      simp only at stopped
      split at stopped
      · cases stopped
      · cases stopped
        exact .inl ⟨_, rfl⟩

theorem wordsHalt {words : List String} {halt : Halt} (stopped : r.words words = .error halt) :
    (∃ m, halt = .misuse m) ∨ ∃ word ∈ words, asks word = true := by
  induction words generalizing r with
  | nil => cases stopped
  | cons word rest ih =>
    rcases bindError.mp stopped with step | ⟨next, _, later⟩
    · exact (wordHalts step).imp_right fun asked => ⟨word, List.mem_cons_self, asked⟩
    · rcases ih later with misuse | ⟨other, member, asked⟩
      · exact .inl misuse
      · exact .inr ⟨other, List.mem_cons_of_mem _ member, asked⟩

end Reading

namespace Arguments

variable {environment : Environment} {args : List String} {a : Arguments}

theorem parseSettings (accepted : parse environment args = .ok a) :
    ∃ g, Given.nothing.addAll (settings args) = .ok g ∧ g.complete environment = .ok a := by
  obtain ⟨r, read, rest⟩ := bindOk.mp accepted
  obtain ⟨g, settled, completed⟩ := bindOk.mp rest
  exact ⟨g, Reading.wordsSettings read settled, mapErrorOk.mp completed⟩

theorem parseHalts {halt : Halt} (stopped : parse environment args = .error halt) :
    (∃ m, halt = .misuse m) ∨ ∃ word ∈ args, asks word = true := by
  rcases bindError.mp stopped with unread | ⟨r, _, rest⟩
  · exact Reading.wordsHalt unread
  · rcases bindError.mp rest with unsettled | ⟨g, _, incomplete⟩
    · exact .inl (Reading.settleHalts unsettled)
    · obtain ⟨m, _, same⟩ := mapErrorError.mp incomplete
      exact .inl ⟨m, same.symm⟩

end Arguments

/-! ## What the settings come to -/

namespace Given

open Environment (text Askable)

variable {g g' : Given} {k : Key} {value : String}

theorem assignmentSome {w : String × String} (taken : assignment? value = some w) :
    value.toList = text w ∧ Askable w.1 := by
  unfold assignment? at taken
  rcases Environment.equalsFirst value.toList with ⟨_, ends⟩ | ⟨rest, found, whole, before⟩
  · rw [ends] at taken
    split at taken <;> contradiction
  · rw [found] at taken
    split at taken <;> try contradiction
    rename_i c name _ _ first last
    cases taken
    cases last
    rw [first] at before whole
    refine ⟨?_, ?_, ?_⟩
    · simp only [text, String.toList_ofList]
      exact whole
    · intro none
      have bare := congrArg String.toList none
      simp at bare
    · rw [String.toList_ofList]
      exact before

theorem assignmentNone (bad : '=' ∉ value.toList ∨ value.toList.head? = some '=') :
    assignment? value = none := by
  cases taken : assignment? value with
  | none => rfl
  | some w =>
    obtain ⟨same, askable⟩ := assignmentSome taken
    obtain ⟨c, cs, parts, other, _⟩ := Environment.askableParts askable
    rw [same, text, parts] at bad
    rcases bad with missing | first
    · exact absurd (List.mem_append_right _ List.mem_cons_self) missing
    · cases first
      exact absurd rfl other

theorem onceOk {α : Type} {old new : Option α} {value : α} (taken : once k old value = .ok new) :
    new = some value := by
  unfold once at taken
  split at taken
  · cases taken
  · cases taken
    rfl

theorem addSetting (added : g.add k value = .ok g') :
    (∃ vars, g'.env = g.env ++ vars ∧
      (valuesOf .env [(k, value)]).map assignment? = vars.map some) ∧
    g'.target = (valuesOf .target [(k, value)]).getLast?.or g.target := by
  cases k with
  | env =>
    simp only [add] at added
    split at added
    · rename_i w taken
      cases added
      exact ⟨⟨[w], rfl, by simp [valuesOf, taken]⟩, rfl⟩
    · cases added
  | report =>
    simp only [add] at added
    split at added
    · cases added
    · split at added
      · cases added
        exact ⟨⟨[], (List.append_nil _).symm, rfl⟩, rfl⟩
      · cases added
  | probe =>
    obtain ⟨new, taken, same⟩ := bindOk.mp added
    cases same
    exact ⟨⟨[], (List.append_nil _).symm, rfl⟩, rfl⟩
  | output =>
    obtain ⟨new, taken, same⟩ := bindOk.mp added
    cases same
    exact ⟨⟨[], (List.append_nil _).symm, rfl⟩, rfl⟩
  | target =>
    obtain ⟨new, taken, same⟩ := bindOk.mp added
    cases same
    exact ⟨⟨[], (List.append_nil _).symm, rfl⟩, onceOk taken⟩

theorem valuesOfAppend (k : Key) (first second : List (Key × String)) :
    valuesOf k (first ++ second) = valuesOf k first ++ valuesOf k second :=
  List.filterMap_append

theorem addAllSettings {given : List (Key × String)} (added : g.addAll given = .ok g') :
    (∃ vars, g'.env = g.env ++ vars ∧ (valuesOf .env given).map assignment? = vars.map some) ∧
    g'.target = (valuesOf .target given).getLast?.or g.target := by
  induction given generalizing g with
  | nil =>
    cases added
    exact ⟨⟨[], (List.append_nil _).symm, rfl⟩, rfl⟩
  | cons s rest ih =>
    obtain ⟨k, value⟩ := s
    obtain ⟨next, first, added⟩ := bindOk.mp added
    obtain ⟨⟨vars, env, taken⟩, target⟩ := addSetting first
    obtain ⟨⟨later, env', taken'⟩, target'⟩ := ih (g := next) added
    have split : ∀ k', valuesOf k' ((k, value) :: rest) =
        valuesOf k' [(k, value)] ++ valuesOf k' rest :=
      fun k' => valuesOfAppend k' [(k, value)] rest
    refine ⟨⟨vars ++ later, ?_, ?_⟩, ?_⟩
    · rw [env', env, List.append_assoc]
    · rw [split, List.map_append, taken, taken', List.map_append]
    · rw [split, List.getLast?_append, target', target, Option.or_assoc]

end Given

namespace Arguments

open Environment (text Askable)

variable {environment : Environment} {args : List String} {a : Arguments}

theorem parseValues (accepted : parse environment args = .ok a) :
    (values .env args).map Given.assignment? = a.env.map some ∧
    a.target = ((values .target args).getLast?.or (Key.fromEnvironment? .target environment)).getD
      "" := by
  obtain ⟨g, added, completed⟩ := parseSettings accepted
  obtain ⟨⟨vars, env, taken⟩, target⟩ := Given.addAllSettings added
  have env : g.env = vars := env
  have target : g.target = (values .target args).getLast? := target.trans (Option.or_none)
  unfold Given.complete at completed
  dsimp only at completed
  split at completed <;> try contradiction
  cases completed
  exact ⟨env ▸ taken, by rw [target]⟩

theorem assignedTexts {texts : List String} {vars : List (String × String)}
    (taken : texts.map Given.assignment? = vars.map some) :
    texts.map String.toList = vars.map text ∧ ∀ w ∈ vars, Askable w.1 := by
  induction vars generalizing texts with
  | nil =>
    cases List.map_eq_nil_iff.mp taken
    exact ⟨rfl, List.forall_mem_nil _⟩
  | cons w rest ih =>
    cases texts with
    | nil => cases taken
    | cons first texts =>
      obtain ⟨own, others⟩ := List.cons.inj taken
      obtain ⟨same, askable⟩ := Given.assignmentSome own
      obtain ⟨later, askable'⟩ := ih others
      refine ⟨?_, ?_⟩
      · rw [List.map_cons, List.map_cons, same, later]
      · intro v member
        rcases List.mem_cons.mp member with rfl | member
        · exact askable
        · exact askable' v member

end Arguments
end BuildProbe.Command
