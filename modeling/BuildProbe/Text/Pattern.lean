import BuildProbe.Text.Pattern.Set
/-!
Which texts can be read as patterns. A pattern is a row of characters, sets, edges and groups,
each of which may be repeated, and rows of which one is to match have bars between them. Groups
may have names, all different, or options, and options may be changed up to the end of a group.
A repetition with a count would need a closing brace, which no text here contains.
-/
namespace BuildProbe.Text.Pattern

structure Group where
  after : Options
  branches : Row
  items : Row
  /-- How deep the last item is, if it can be repeated. -/
  last : Option Nat
  deriving DecidableEq, Repr

namespace Group

def start (after : Options) : Group := ⟨after, .empty, .empty, none⟩

def add (g : Group) (depth : Nat) : Group :=
  { g with items := g.items.add depth, last := some depth }

def changed (g : Group) : Group := { g with items := g.items.add 0, last := none }

def repeated? (g : Group) : Option Group := do
  let depth ← g.last
  return { g with items.depth := max g.items.depth (depth + 1), last := some (depth + 1) }

def bar (g : Group) : Group :=
  { g with branches := g.branches.add g.items.whole, items := .empty, last := none }

def inner (g : Group) : Nat := (g.branches.add g.items.whole).whole

end Group

structure Place where
  options : Options
  names : List (List Char)
  brackets : List Bracket
  group : Group
  outer : List Group
  deriving DecidableEq, Repr

namespace Place

def start : Place := ⟨.start, [], [], .start .start, []⟩

def depthLimit : Nat := 250

def isEnd (p : Place) : Bool :=
  p.brackets.isEmpty && p.outer.isEmpty && decide (p.group.inner ≤ depthLimit)

def add (p : Place) (depth : Nat) : Place := { p with group := p.group.add depth }

def leaf? (p : Place) (permitted : Bool) : Option Place :=
  if permitted then some (p.add 0) else none

def isName (cs : List Char) : Bool :=
  match cs with
  | [] => false
  | c :: rest =>
    (c = '_' || isLetter c) && rest.all fun c => "_.[]".toList.contains c || isWord c

def enter (p : Place) (inside : Options) : Place :=
  { p with options := inside, group := .start p.options, outer := p.group :: p.outer }

def named? (p : Place) (cs : List Char) : Option (Place × List Char) :=
  let name := cs.takeWhile (· != '>')
  match cs.drop name.length with
  | [] => none
  | _ :: rest =>
    if isName name ∧ name ∉ p.names then
      some ({ p.enter p.options with names := name :: p.names }, rest)
    else none

def optional? (p : Place) (cs : List Char) : Option (Place × List Char) :=
  let change := cs.takeWhile fun c => c != ':' && c != ')'
  if !Options.isChange change then none
  else match cs.drop change.length with
    | [] => none
    | ':' :: rest => some (p.enter (p.options.change change), rest)
    | _ :: rest =>
      if change = [] then none
      else some ({ p with options := p.options.change change, group := p.group.changed }, rest)

def opened? (p : Place) (cs : List Char) : Option (Place × List Char) :=
  match p.options.skip cs with
  | '?' :: 'P' :: '<' :: rest => p.named? rest
  | '?' :: '<' :: rest => p.named? rest
  | '?' :: rest => p.optional? rest
  | rest => some (p.enter p.options, rest)

def closed? (p : Place) : Option Place :=
  match p.outer with
  | [] => none
  | g :: outer =>
    some { p with options := p.group.after, group := g.add (p.group.inner + 1), outer := outer }

def bracket? (p : Place) (cs : List Char) : Option (Place × List Char) := do
  return ({ p with brackets := .start :: p.brackets }, ← Bracket.opened? p.options cs)

def repeated? (p : Place) (cs : List Char) : Option (Place × List Char) := do
  return ({ p with group := ← p.group.repeated? }, if cs.head? = some '?' then cs.tail else cs)

def escape? (p : Place) (cs : List Char) : Option (Place × List Char) := do
  match ← Escape.read? p.options cs with
  | (.letter l, rest) => return (← p.leaf? (p.options.permits l), rest)
  | (.kind negated, rest) => return (← p.leaf? (p.options.permitsClass negated), rest)
  | (.edge ofWord, rest) => return (← p.leaf? (!ofWord || p.options.permitsEdge), rest)

def outside? (p : Place) (c : Char) (cs : List Char) : Option (Place × List Char) :=
  if c = '(' then p.opened? cs
  else if c = ')' then p.closed?.map (·, cs)
  else if c = '|' then some ({ p with group := p.group.bar }, cs)
  else if c = '[' then p.bracket? cs
  else if c = '?' ∨ c = '*' ∨ c = '+' then p.repeated? cs
  else if c = '\x7b' then none
  else if c = '\\' then p.escape? cs
  else if c = '^' ∨ c = '$' then some (p.add 0, cs)
  else if c = '.' then (p.leaf? p.options.permitsOthers).map (·, cs)
  else (p.leaf? (p.options.permits ⟨c, false⟩)).map (·, cs)

def put (p : Place) (b : Bracket) (outer : List Bracket) : Place :=
  { p with brackets := b :: outer }

def closedSet (p : Place) (b : Bracket) : List Bracket → Place
  | [] => { p with brackets := [] }.add (b.inner + 1)
  | enclosing :: outer => p.put (enclosing.add (b.inner + 1)) outer

def nested? (p : Place) (b : Bracket) (outer : List Bracket) (cs : List Char) :
    Option (Place × List Char) :=
  match Bracket.named? cs with
  | some (negated, rest) =>
    if p.options.permitsNamed negated then some (p.put (b.add 0) outer, rest) else none
  | none => p.bracket? cs

def operates (c : Char) : Bool := "&-~".toList.contains c

def inside? (p : Place) (b : Bracket) (outer : List Bracket) (c : Char) (cs : List Char) :
    Option (Place × List Char) :=
  if b.fresh ∧ (c = '-' ∨ c = ']' ∧ b.items.count = 0) then
    if p.options.permitsMember ⟨c, false⟩ then
      some (p.put { b.add 0 with fresh := c = '-' } outer, cs)
    else none
  else if c = ']' then some (p.closedSet b outer, cs)
  else if c = '[' then p.nested? b outer cs
  else if operates c ∧ cs.head? = some c then some (p.put b.operation outer, cs.tail)
  else do return (p.put (b.add 0) outer, ← Bracket.member? p.options (c :: cs))

def next? (p : Place) (c : Char) (cs : List Char) : Option (Place × List Char) :=
  match p.brackets with
  | [] => p.outside? c cs
  | b :: outer => p.inside? b outer c cs

def reads (p : Place) (steps : Nat) (cs : List Char) : Bool :=
  match p.options.skip cs, steps with
  | [], _ => p.isEnd
  | _ :: _, 0 => false
  | c :: rest, steps + 1 =>
    match p.next? c rest with
    | none => false
    | some (next, behind) => next.reads steps behind

end Place

def accepts (cs : List Char) : Bool := Place.start.reads cs.length cs

end BuildProbe.Text.Pattern
