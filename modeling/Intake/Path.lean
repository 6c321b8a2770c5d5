namespace Intake

inductive Segment where
  | field (name : String)
  | index (position : Nat)
  deriving DecidableEq

def Segment.text : Segment → String
  | .field name => name
  | .index position => toString position

structure Path where
  segments : List Segment
  deriving DecidableEq

namespace Path

def root : Path := ⟨[]⟩

instance : Append Path := ⟨fun p q => ⟨p.segments ++ q.segments⟩⟩

def field (p : Path) (name : String) : Path := ⟨p.segments ++ [.field name]⟩

def index (p : Path) (position : Nat) : Path := ⟨p.segments ++ [.index position]⟩

def ofFields (names : List String) : Path := ⟨names.map .field⟩

@[simp] theorem segments_append (p q : Path) : (p ++ q).segments = p.segments ++ q.segments := rfl

@[simp] theorem segments_field (p : Path) (name : String) :
    (p.field name).segments = p.segments ++ [.field name] := rfl

@[simp] theorem segments_index (p : Path) (position : Nat) :
    (p.index position).segments = p.segments ++ [.index position] := rfl

def isRoot (p : Path) : Bool := p.segments.isEmpty

def length (p : Path) : Nat := p.segments.length

def last? (p : Path) : Option Segment := p.segments.getLast?

def texts (p : Path) : List String := p.segments.map Segment.text

def dotted (p : Path) : String := ".".intercalate p.texts

def innerText : List Segment → String
  | [] => ""
  | .field name :: rest => "." ++ name ++ innerText rest
  | .index position :: rest => "[" ++ toString position ++ "]" ++ innerText rest

def display (p : Path) : String :=
  match p.segments with
  | .field name :: rest => name ++ innerText rest
  | segments => innerText segments

end Path

end Intake
