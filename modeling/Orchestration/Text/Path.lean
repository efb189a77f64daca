namespace Orchestration.Text

def splitAtSlashes : List Char → List (List Char)
  | [] => [[]]
  | c :: r =>
    match splitAtSlashes r with
    | [] => [[c]]
    | part :: parts => if c = '/' then [] :: part :: parts else (c :: part) :: parts

/-- The name of the file at the end of a path, unless the path goes up to a parent or names none. -/
def fileName? (path : String) : Option (List Char) :=
  let parts := (splitAtSlashes path.toList).filter fun part => part != [] && part != ['.']
  parts.getLast?.filter (· != ['.', '.'])

/-- A file name up to its last point, if something stands before that. -/
def stem (name : List Char) : List Char :=
  match (name.reverse.dropWhile (· != '.')).drop 1 with
  | [] => name
  | before => before.reverse

def fileStem? (path : String) : Option String :=
  (fileName? path).map fun name => String.ofList (stem name)

end Orchestration.Text
