/-
  Lending.Action.Resolve — the action a tag names.

  A tag is taken as the name an action is sent under, or else in capitals as the name it is
  listed under. Capitals are those of Unicode; besides ASCII letters only the dotless i and
  the long s have capitals that occur in a name.
-/
import Lending.Fault

namespace Lending

namespace Action

def capital (c : Char) : Char :=
  if c.toNat = 0x131 then 'I' else if c.toNat = 0x17f then 'S' else c.toUpper

def ofText? (s : String) : Option Action :=
  match all.find? (·.label == s) with
  | some action => some action
  | none => all.find? (·.member.toList == s.toList.map capital)

end Action

def ActionTag.resolve (tag : ActionTag) : Outcome Action :=
  match tag with
  | .text s => Outcome.ofOption (.unknownAction tag) (Action.ofText? s)
  | _ => .error (.unknownAction tag)

end Lending
