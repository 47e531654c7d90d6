import BuildProbe.Proofs.Tree.Calls

/-!
How far a path leads. A walk that meets no link enters directories until a name is missing; the
names from there on are ahead of it, as they will be entered once the directories are made. A name
that is too long ends what is ahead, a file ends the walk where it stands, and a link, or two dots
after something that is missing, leads astray: then nothing is said about the walk. Making the
first directory ahead takes the approach one name further. Nothing else that a tree may gain
changes an approach, unless it is put in the place of the first name ahead.
-/
namespace BuildProbe.Tree

inductive Outlook where
  | clear
  | overlong
  /-- A file, with pieces of the path still to go. -/
  | shut (beyond : List String)
  | astray
  deriving DecidableEq, Repr

structure Approach where
  way : List Nat
  ahead : List String
  outlook : Outlook
  deriving DecidableEq, Repr

def venture : List String → List String × Outlook
  | [] => ([], .clear)
  | piece :: rest =>
    if piece = "" ∨ piece = "." then venture rest
    else if piece = ".." then ([], .astray)
    else if nameTooLong piece then ([], .overlong)
    else (piece :: (venture rest).1, (venture rest).2)

def approach (t : Tree) (way : List Nat) : List String → Approach
  | [] => ⟨way, [], .clear⟩
  | piece :: rest =>
    if piece = "" ∨ piece = "." then approach t way rest
    else if piece = ".." then approach t way.tail rest
    else if nameTooLong piece then ⟨way, [], .overlong⟩
    else
      match t.get? ⟨standing way, piece⟩ with
      | none => ⟨way, piece :: (venture rest).1, (venture rest).2⟩
      | some ⟨id, .directory⟩ => approach t (id :: way) rest
      | some ⟨_, .file ..⟩ => ⟨way, [], .shut rest⟩
      | some ⟨_, .link _⟩ => ⟨way, [], .astray⟩

def Approach.onward (a : Approach) (t : Tree) (pieces : List String) : Approach :=
  match a.outlook with
  | .clear =>
    if a.ahead = [] then t.approach a.way pieces
    else ⟨a.way, a.ahead ++ (venture pieces).1, (venture pieces).2⟩
  | .shut beyond => ⟨a.way, a.ahead, .shut (beyond ++ pieces)⟩
  | _ => a

theorem onwardArrived (t : Tree) (way : List Nat) (pieces : List String) :
    (⟨way, [], .clear⟩ : Approach).onward t pieces = t.approach way pieces := rfl

theorem onwardAhead (t : Tree) (way : List Nat) (m : String) (l pieces : List String) :
    (⟨way, m :: l, .clear⟩ : Approach).onward t pieces =
      ⟨way, m :: (l ++ (venture pieces).1), (venture pieces).2⟩ := rfl

theorem ventureAppend (first second : List String) :
    venture (first ++ second) =
      if (venture first).2 = .clear then
        ((venture first).1 ++ (venture second).1, (venture second).2)
      else venture first := by
  fun_induction venture first with
  | case1 => rfl
  | case2 piece rest skip ih => rw [List.cons_append, venture, if_pos skip, ih]
  | case3 rest name => rw [List.cons_append, venture, if_neg name, if_pos rfl]; rfl
  | case4 piece rest name up long =>
    rw [List.cons_append, venture, if_neg name, if_neg up, if_pos long]
    rfl
  | case5 piece rest name up long ih =>
    rw [List.cons_append, venture, if_neg name, if_neg up, if_neg long, ih]
    split <;> rfl

theorem ventureOpen (pieces beyond : List String) : (venture pieces).2 ≠ .shut beyond := by
  fun_induction venture pieces with
  | case2 piece rest skip ih => exact ih
  | case5 piece rest name up long ih => exact ih
  | _ => exact nofun

theorem approachAppend (t : Tree) (way : List Nat) (first second : List String) :
    t.approach way (first ++ second) = (t.approach way first).onward t second := by
  fun_induction approach t way first with
  | case1 way => rfl
  | case2 way piece rest skip ih => rw [List.cons_append, approach, if_pos skip, ih]
  | case3 way rest name ih => rw [List.cons_append, approach, if_neg name, if_pos rfl, ih]
  | case4 way piece rest name up long =>
    rw [List.cons_append, approach, if_neg name, if_neg up, if_pos long]
    rfl
  | case5 way piece rest name up long missing =>
    rw [List.cons_append, approach, if_neg name, if_neg up, if_neg long, missing]
    simp only [ventureAppend, Approach.onward]
    cases outlook : (venture rest).2 with
    | clear => simp
    | shut beyond => exact absurd outlook (ventureOpen rest beyond)
    | _ => simp [outlook]
  | case6 way piece rest name up long id here ih =>
    rw [List.cons_append, approach, if_neg name, if_neg up, if_neg long, here]
    exact ih
  | case7 way piece rest name up long id content mode here =>
    rw [List.cons_append, approach, if_neg name, if_neg up, if_neg long, here]
    rfl
  | case8 way piece rest name up long id target here =>
    rw [List.cons_append, approach, if_neg name, if_neg up, if_neg long, here]
    rfl

def Approach.Leads (result : Except Errno Goal) : Approach → Prop
  | ⟨_, _ :: _, _⟩ => result = .error .notFound
  | ⟨way, [], .clear⟩ => result = .ok (.inside way)
  | ⟨_, [], .overlong⟩ => result = .error .nameTooLong
  | ⟨_, [], .shut []⟩ => ∃ loc id content mode, result = .ok (.at loc ⟨id, .file content mode⟩)
  | ⟨_, [], .shut (_ :: _)⟩ => result = .error .notADirectory
  | ⟨_, [], .astray⟩ => True

theorem approachLeads (t : Tree) (follow : Bool) (links : Nat) (way : List Nat)
    (pieces : List String) : (t.approach way pieces).Leads (t.walk follow links way pieces) := by
  fun_induction approach t way pieces with
  | case1 way => rw [walk]; rfl
  | case2 way piece rest skip ih => rw [walk, if_pos skip]; exact ih
  | case3 way rest name ih => rw [walk, if_neg name, if_pos rfl]; exact ih
  | case4 way piece rest name up long =>
    rw [walk, if_neg name, if_neg up, if_pos long]
    rfl
  | case5 way piece rest name up long missing =>
    rw [walk, if_neg name, if_neg up, if_neg long, missing]
    rfl
  | case6 way piece rest name up long id here ih =>
    rw [walk, if_neg name, if_neg up, if_neg long, here]
    exact ih
  | case7 way piece rest name up long id content mode here =>
    rw [walk, if_neg name, if_neg up, if_neg long, here]
    cases rest with
    | nil => exact ⟨_, _, _, _, rfl⟩
    | cons next rest => rfl
  | case8 way piece rest name up long id target here => exact trivial

theorem approachHeaded {t : Tree} {way : List Nat} {pieces : List String} {m : String}
    {l : List String} (headed : (t.approach way pieces).ahead = m :: l) :
    t.get? ⟨standing (t.approach way pieces).way, m⟩ = none ∧ m ∈ pieces ∧
      (nameTooLong m = false ∧ m ≠ "" ∧ m ≠ "." ∧ m ≠ "..") := by
  fun_induction approach t way pieces with
  | case2 way piece rest skip ih => exact (ih headed).imp_right (.imp_left (List.mem_cons_of_mem _))
  | case3 way rest name ih => exact (ih headed).imp_right (.imp_left (List.mem_cons_of_mem _))
  | case5 way piece rest name up long missing =>
    obtain ⟨rfl, -⟩ := List.cons.inj headed
    refine ⟨missing, List.mem_cons_self, by simpa using long, ?_⟩
    exact ⟨fun blank => name (.inl blank), fun dot => name (.inr dot), up⟩
  | case6 way piece rest name up long id here ih =>
    exact (ih headed).imp_right (.imp_left (List.mem_cons_of_mem _))
  | _ => cases headed

theorem approachOpen {t : Tree} {way : List Nat} {pieces : List String}
    (missing : (t.approach way pieces).ahead ≠ []) (beyond : List String) :
    (t.approach way pieces).outlook ≠ .shut beyond := by
  fun_induction approach t way pieces with
  | case2 way piece rest skip ih => exact ih missing
  | case3 way rest name ih => exact ih missing
  | case5 way piece rest name up long free => exact ventureOpen rest beyond
  | case6 way piece rest name up long id here ih => exact ih missing
  | _ => exact absurd rfl missing

def Known (t : Tree) (id : Nat) : Prop := id = root ∨ ∃ loc, t.get? loc = some ⟨id, .directory⟩

theorem knownOld {t : Tree} {id : Nat} (known : t.Known id) : id ≠ t.freshId := by
  rcases known with rfl | ⟨loc, found⟩
  · simp only [root, freshId]; omega
  · exact Nat.ne_of_lt (idFresh found)

theorem standingKnown {t : Tree} {way : List Nat} (known : ∀ id ∈ way, t.Known id) :
    t.Known (standing way) := by
  cases way with
  | nil => exact .inl rfl
  | cons id way => exact known id List.mem_cons_self

theorem approachKnown {t : Tree} {way : List Nat} {pieces : List String}
    (known : ∀ id ∈ way, t.Known id) : ∀ id ∈ (t.approach way pieces).way, t.Known id := by
  fun_induction approach t way pieces with
  | case2 way piece rest skip ih => exact ih known
  | case3 way rest name ih => exact ih fun id member => known id (List.mem_of_mem_tail member)
  | case6 way piece rest name up long id here ih =>
    refine ih fun other member => ?_
    rcases List.mem_cons.mp member with rfl | member
    · exact .inr ⟨_, here⟩
    · exact known other member
  | _ => exact known

def Approach.entered (a : Approach) (loc : Location) (id : Nat) : Approach :=
  match a.ahead with
  | [] => a
  | m :: l => if ⟨standing a.way, m⟩ = loc then ⟨id :: a.way, l, a.outlook⟩ else a

theorem enteredAhead (way : List Nat) (m : String) (l : List String) (outlook : Outlook)
    (loc : Location) (id : Nat) :
    (⟨way, m :: l, outlook⟩ : Approach).entered loc id =
      if ⟨standing way, m⟩ = loc then ⟨id :: way, l, outlook⟩ else ⟨way, m :: l, outlook⟩ := rfl

theorem enteredOutlook (a : Approach) (loc : Location) (id : Nat) :
    (a.entered loc id).outlook = a.outlook := by
  unfold Approach.entered
  split
  · rfl
  · split <;> rfl

theorem approachVenture {t : Tree} {way : List Nat} {pieces : List String}
    (empty : ∀ name, t.get? ⟨standing way, name⟩ = none) (straight : (venture pieces).2 ≠ .astray) :
    t.approach way pieces = ⟨way, (venture pieces).1, (venture pieces).2⟩ := by
  fun_induction venture pieces with
  | case1 => rfl
  | case2 piece rest skip ih => rw [approach, if_pos skip]; exact ih straight
  | case3 rest name => exact absurd rfl straight
  | case4 piece rest name up long => rw [approach, if_neg name, if_neg up, if_pos long]
  | case5 piece rest name up long ih => rw [approach, if_neg name, if_neg up, if_neg long, empty]

theorem freshNothing {t : Tree} {loc : Location} {node : Node} (old : loc.directory ≠ t.freshId)
    (name : String) : (t.add loc node).get? ⟨t.freshId, name⟩ = none := by
  have elsewhere : (⟨t.freshId, name⟩ : Location) ≠ loc := fun same => old (same ▸ rfl)
  rw [getAdd, if_neg elsewhere, get?, freshEmpty]
  rfl

theorem approachEntered {t : Tree} {loc : Location} {way : List Nat} {pieces : List String}
    (free : t.get? loc = none) (old : loc.directory ≠ t.freshId)
    (straight : (t.approach way pieces).outlook ≠ .astray) :
    (t.add loc .directory).approach way pieces =
      (t.approach way pieces).entered loc t.freshId := by
  fun_induction approach t way pieces with
  | case1 way => rfl
  | case2 way piece rest skip ih => rw [approach, if_pos skip]; exact ih straight
  | case3 way rest name ih => rw [approach, if_neg name, if_pos rfl]; exact ih straight
  | case4 way piece rest name up long =>
    rw [approach, if_neg name, if_neg up, if_pos long]
    rfl
  | case5 way piece rest name up long missing =>
    rw [approach, if_neg name, if_neg up, if_neg long, getAdd]
    by_cases here : (⟨standing way, piece⟩ : Location) = loc
    · have empty : ∀ name, (t.add loc .directory).get? ⟨standing (t.freshId :: way), name⟩ = none := by
        intro name
        have elsewhere : (⟨t.freshId, name⟩ : Location) ≠ loc := fun same => old (same ▸ rfl)
        rw [getAdd, standing, List.headD_cons, if_neg elsewhere, get?, freshEmpty]
        rfl
      simp only [if_pos here, Approach.entered]
      exact approachVenture empty straight
    · simp only [if_neg here, missing, Approach.entered]
  | case6 way piece rest name up long id here ih =>
    have taken : (⟨standing way, piece⟩ : Location) ≠ loc := by
      rintro rfl
      rw [free] at here
      cases here
    rw [approach, if_neg name, if_neg up, if_neg long, getAdd, if_neg taken, here]
    exact ih straight
  | case7 way piece rest name up long id content mode here =>
    have taken : (⟨standing way, piece⟩ : Location) ≠ loc := by
      rintro rfl
      rw [free] at here
      cases here
    rw [approach, if_neg name, if_neg up, if_neg long, getAdd, if_neg taken, here]
    rfl
  | case8 way piece rest name up long id target here => exact absurd rfl straight

/- For walks along these names: directories stay what they are, and files stay files. -/
structure Upholds (t t' : Tree) (names : List String) : Prop where
  directories : ∀ {loc id}, loc.name ∈ names → t.get? loc = some ⟨id, .directory⟩ →
    t'.get? loc = some ⟨id, .directory⟩
  files : ∀ {loc id content mode}, loc.name ∈ names → t.get? loc = some ⟨id, .file content mode⟩ →
    ∃ id content mode, t'.get? loc = some ⟨id, .file content mode⟩

theorem upholdsRest {t t' : Tree} {piece : String} {rest : List String}
    (upholds : t.Upholds t' (piece :: rest)) : t.Upholds t' rest :=
  ⟨fun member => upholds.directories (List.mem_cons_of_mem _ member),
    fun member => upholds.files (List.mem_cons_of_mem _ member)⟩

theorem approachUpheld {t t' : Tree} {way : List Nat} {pieces : List String}
    (upholds : t.Upholds t' pieces) (straight : (t.approach way pieces).outlook ≠ .astray)
    (front : ∀ m l, (t.approach way pieces).ahead = m :: l →
      t'.get? ⟨standing (t.approach way pieces).way, m⟩ = none) :
    t'.approach way pieces = t.approach way pieces := by
  fun_induction approach t way pieces with
  | case1 way => rfl
  | case2 way piece rest skip ih =>
    rw [approach, if_pos skip]
    exact ih (upholdsRest upholds) straight front
  | case3 way rest name ih =>
    rw [approach, if_neg name, if_pos rfl]
    exact ih (upholdsRest upholds) straight front
  | case4 way piece rest name up long => rw [approach, if_neg name, if_neg up, if_pos long]
  | case5 way piece rest name up long missing =>
    rw [approach, if_neg name, if_neg up, if_neg long, front piece _ rfl]
  | case6 way piece rest name up long id here ih =>
    rw [approach, if_neg name, if_neg up, if_neg long,
      upholds.directories List.mem_cons_self here]
    exact ih (upholdsRest upholds) straight front
  | case7 way piece rest name up long id content mode here =>
    obtain ⟨_, _, _, still⟩ := upholds.files List.mem_cons_self here
    rw [approach, if_neg name, if_neg up, if_neg long, still]
  | case8 way piece rest name up long id target here => exact absurd rfl straight

end BuildProbe.Tree
