import BuildProbe.Tree.Calls
/-!
Laying out a tree by hand, and listing what is in it. Missing directories are made on the way to
an entry that is put somewhere. A listing leaves out the programs.
-/
namespace BuildProbe
namespace Tree

def leadingParts (p : Path) : List Path :=
  (List.range p.pieces.length).map fun n => { p with pieces := p.pieces.take (n + 1) }

def makeAll (t : Tree) (p : Path) : Tree :=
  (leadingParts p).foldl (fun t part => (t.mkdir part).toOption.getD t) t

def blank (directories : List Path) (present : Path) : Tree :=
  let t := (directories ++ [present]).foldl makeAll ⟨∅, []⟩
  match t.resolve true present with
  | .ok (.inside way) => { t with present := way }
  | _ => t

def bare : Tree := blank [.ofText "/bin", .ofText "/usr/bin"] (.ofText "/work")

def locate? (t : Tree) (p : Path) : Option Location :=
  match t.slot p with
  | .ok ⟨directory, .name name, _⟩ => some ⟨directory, name⟩
  | _ => none

def put (t : Tree) (p : Path) (node : Node) : Tree :=
  match node with
  | .directory => t.makeAll p
  | _ =>
    let t := t.makeAll { p with pieces := p.pieces.dropLast }
    match t.locate? p with
    | some loc => t.add loc node
    | none => t

def remove (t : Tree) (p : Path) : Tree :=
  match t.locate? p with
  | some loc => t.erase loc
  | none => t

def shown? (path : String) : Node → Option (String × Node)
  | .file (.program _) _ => none
  | node => some (path, node)

def below (t : Tree) (lead : String) (directory : Nat) : (depth : Nat) → List (String × Node)
  | 0 => []
  | depth + 1 => (t.names directory).flatMap fun (name, e) =>
    (shown? (lead ++ name) e.node).toList
      ++ if e.isDirectory then t.below (lead ++ name ++ "/") e.id depth else []

/-- What is in the present directory, in the order of the paths' bytes. No way down is longer
than there are identities. -/
def listing (t : Tree) : List (String × Node) :=
  (t.below "" (standing t.present) t.freshId).mergeSort fun a b => decide (a.1 ≤ b.1)

end Tree
end BuildProbe
