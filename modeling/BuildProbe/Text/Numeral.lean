/-!
Numbers in texts.
-/
namespace BuildProbe.Text

/-- Whether a text is a number without a sign: digits with or without a point among or beside
them, and an exponent or none, or a word for what is no finite number. -/
def isNumber (cs : List Char) : Bool :=
  let whole := cs.takeWhile Char.isDigit
  let rest := cs.drop whole.length
  let fraction := if rest.head? = some '.' then rest.tail.takeWhile Char.isDigit else []
  let rest := if rest.head? = some '.' then rest.tail.drop fraction.length else rest
  let exponent := match rest with
    | [] => true
    | e :: digits =>
      let digits := if digits.head?.any (fun c => c = '+' ∨ c = '-') then digits.tail else digits
      (e = 'e' ∨ e = 'E') ∧ digits ≠ [] ∧ digits.all Char.isDigit
  (whole ++ fraction ≠ [] && exponent)
    || ["inf", "infinity", "nan"].contains (String.ofList (cs.map Char.toLower))

end BuildProbe.Text
