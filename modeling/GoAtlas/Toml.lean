/-!
# TOML documents

Values of the configuration format and the rules by which keys and headers add to a document.
A key is never defined twice. Dotted keys extend only tables that dotted keys made, and a
header opens a table that was at most implied by the headers of its children.
-/

namespace GoAtlas

namespace Toml

inductive Origin where
  | header
  | implied
  | dotted
  | inline
  deriving Repr, DecidableEq

end Toml

inductive Toml where
  | string (value : String)
  | integer (value : Int)
  | float (value : Float)
  | boolean (value : Bool)
  | dateTime (text : String)
  | array (items : List Toml)
  | table (origin : Toml.Origin) (entries : List (String × Toml))
  /-- Tables that were opened by headers in double brackets; the last one is open. -/
  | tables (items : List (List (String × Toml)))

namespace Toml

abbrev Entries := List (String × Toml)

def replace (key : String) (value : Toml) : Entries -> Entries
  | [] => [(key, value)]
  | (k, v) :: rest => if k == key then (k, value) :: rest else (k, v) :: replace key value rest

def define (key : String) (value : Toml) (entries : Entries) : Option Entries :=
  match entries.lookup key with
  | some _ => none
  | none => some (entries ++ [(key, value)])

/-- A change to a table that knows how the table came to be. -/
abbrev Change := Origin -> Entries -> Option Entries

def changeLast (f : Change) : List Entries -> Option (List Entries)
  | [] => none
  | [last] => (f .header last).map fun last => [last]
  | first :: rest => (changeLast f rest).map fun rest => first :: rest

/-- Follows a path of keys and changes the table at its end. Missing tables are made with
origin `made`; those that `passes` refuses are not entered. -/
def descend (made : Origin) (passes : Origin -> Bool) (f : Change) :
    List String -> Change
  | [], origin, entries => f origin entries
  | key :: path, _, entries =>
      match entries.lookup key with
      | none => (descend made passes f path made []).map fun t => entries ++ [(key, table made t)]
      | some (table origin inner) =>
          if passes origin then
            (descend made passes f path origin inner).map fun t =>
              replace key (table origin t) entries
          else none
      | some (tables items) =>
          (changeLast (descend made passes f path) items).map fun items =>
            replace key (tables items) entries
      | some _ => none

def addDotted (path : List String) (key : String) (value : Toml) (origin : Origin)
    (entries : Entries) : Option Entries :=
  if path.isEmpty then define key value entries
  else
    descend .dotted (fun o => o == .dotted || o == .implied)
      (fun origin entries => if origin == .dotted then define key value entries else none)
      path origin entries

def passesHeader (o : Origin) : Bool :=
  o != .inline

def openTable (path : List String) (key : String) (root : Entries) : Option Entries :=
  descend .implied passesHeader
    (fun _ entries =>
      match entries.lookup key with
      | none => some (entries ++ [(key, table .header [])])
      | some (table .implied inner) => some (replace key (table .header inner) entries)
      | some _ => none)
    path .header root

def openItem (path : List String) (key : String) (root : Entries) : Option Entries :=
  descend .implied passesHeader
    (fun _ entries =>
      match entries.lookup key with
      | none => some (entries ++ [(key, tables [[]])])
      | some (tables items) => some (replace key (tables (items ++ [[]])) entries)
      | some _ => none)
    path .header root

def atHeader (path : List String) (f : Change) (root : Entries) : Option Entries :=
  descend .implied passesHeader f path .header root

end Toml
end GoAtlas
