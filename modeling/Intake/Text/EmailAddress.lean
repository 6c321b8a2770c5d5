import Intake.Text.Blank

namespace Intake

def isAddressChar (c : Char) : Bool := !isBlank c && c != '@'

def hasInnerDot : List Char → Bool
  | [] => false
  | _ :: rest => rest.dropLast.contains '.'

def isEmailAddress (s : List Char) : Bool :=
  match s.span isAddressChar with
  | (_ :: _, '@' :: host) => host.all isAddressChar && hasInnerDot host
  | _ => false

end Intake
