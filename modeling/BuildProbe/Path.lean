import BuildProbe.Text.Lines
/-!
Paths as text. A path is its pieces between slashes, counted from the root when a slash comes
first; empty pieces and single dots name nothing, except a single dot that starts a path. Two
paths with the same components are the same to a reader of text, although they may differ to a
walk through links.
-/
namespace BuildProbe

structure Path where
  absolute : Bool
  pieces : List String
  deriving DecidableEq, Repr

namespace Path

def piecesOf (cs : List Char) : List String :=
  if cs = [] then [] else (cs.splitOn '/').map String.ofList

def ofText (s : String) : Path :=
  match s.toList with
  | '/' :: cs => ⟨true, piecesOf cs⟩
  | cs => ⟨false, piecesOf cs⟩

def text (p : Path) : String :=
  (if p.absolute then "/" else "") ++ "/".intercalate p.pieces

def here : Path := ⟨false, ["."]⟩

def isEmpty (p : Path) : Bool := !p.absolute && p.pieces.isEmpty

def named (piece : String) : Bool := piece != "" && piece != "."

def normal (p : Path) : Path :=
  match p.absolute, p.pieces with
  | false, "." :: rest => ⟨false, "." :: rest.filter named⟩
  | absolute, pieces => ⟨absolute, pieces.filter named⟩

def trim (absolute : Bool) : List String → List String
  | [] => []
  | [p] => if p = "" ∨ (p = "." ∧ absolute) then [] else [p]
  | p :: q :: rest => if p = "" ∨ p = "." then trim absolute (q :: rest) else p :: q :: rest

def parent? (p : Path) : Option Path :=
  match trim p.absolute p.pieces.reverse with
  | [] => none
  | _ :: rest => some ⟨p.absolute, (trim p.absolute rest).reverse⟩

def directory (p : Path) : Path :=
  match p.parent? with
  | some d => if d.isEmpty then here else d
  | none => here

def joined (directory name : String) : String :=
  match directory.toList.getLast? with
  | none | some '/' => directory ++ name
  | _ => directory ++ "/" ++ name

def beside (p target : Path) : Path :=
  if target.absolute then target else ⟨p.absolute, p.pieces.dropLast ++ target.pieces⟩

theorem trimShorter (absolute : Bool) (ps : List String) :
    (trim absolute ps).length ≤ ps.length := by
  fun_induction trim absolute ps with
  | case1 => simp
  | case2 p h => simp
  | case3 p h => simp
  | case4 p q rest h ih => simp at ih ⊢; omega
  | case5 p q rest h => simp

theorem parentShorter {p d : Path} (h : p.parent? = some d) :
    d.pieces.length < p.pieces.length := by
  simp only [parent?] at h
  have size := trimShorter p.absolute p.pieces.reverse
  split at h
  · simp at h
  · rename_i first rest heq
    rw [heq] at size
    have inner := trimShorter p.absolute rest
    cases Option.some.inj h
    simp at size ⊢
    omega

def hasNul (p : Path) : Bool := p.pieces.any fun s => s.toList.contains '\x00'

end Path
end BuildProbe
