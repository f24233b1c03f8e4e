import Scriptlet.Text.CaseTable

/-!
Upper and lower case of a text, by the full Unicode maps without a locale. A capital sigma
becomes the final form where a word ends and the other one elsewhere.
-/

namespace Scriptlet.Text

/-- The character that a run of the table gives for a code point in it. -/
def CaseRun.image? (r : CaseRun) (c : Char) : Option Char :=
  if r.first ≤ c.toNat ∧ c.toNat ≤ r.last ∧ (c.toNat - r.first) % r.step = 0 then
    some (Char.ofNat (c.toNat + r.offset).toNat)
  else none

def mapCase (runs : List CaseRun) (sequences : List (Nat × List Nat)) (c : Char) : List Char :=
  match runs.findSome? (·.image? c), sequences.lookup c.toNat with
  | some d, _ => [d]
  | none, some ds => ds.map Char.ofNat
  | none, none => [c]

def upperChar (c : Char) : List Char := mapCase upperRuns upperSequences c

def lowerChar (c : Char) : List Char := mapCase lowerRuns lowerSequences c

def isCased (c : Char) : Bool := inRanges casedRanges c

def isCaseIgnorable (c : Char) : Bool := inRanges caseIgnorableRanges c

/-- The first character that is not ignorable is a cased letter. -/
def startsCased (cs : List Char) : Bool :=
  ((cs.dropWhile isCaseIgnorable).head?.map isCased).getD false

/-- Lower case of a text that follows `before`, the characters already passed, nearest first. -/
def lowerFrom (before : List Char) : List Char → List Char
  | [] => []
  | 'Σ' :: cs =>
    (if startsCased before && !startsCased cs then 'ς' else 'σ') :: lowerFrom ('Σ' :: before) cs
  | c :: cs => lowerChar c ++ lowerFrom (c :: before) cs

def upper (s : String) : String := String.ofList (s.toList.flatMap upperChar)

def lower (s : String) : String := String.ofList (lowerFrom [] s.toList)

end Scriptlet.Text
