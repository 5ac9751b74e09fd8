import RightsPolicy.Toml.Line

namespace RightsPolicy.Toml

structure Draft where
  members : Members
  current : List String

namespace Draft

def start : Draft :=
  ⟨[], []⟩

def add (draft : Draft) (line : Line) : Option Draft :=
  let document : OpenTable := ⟨.header, draft.members⟩
  match line with
  | .header path =>
    (openTable path document).map fun members => ⟨members, path.way ++ [path.last]⟩
  | .itemHeader path =>
    (openItem path document).map fun members => ⟨members, path.way ++ [path.last]⟩
  | .pair path value =>
    (edit .header (insertPair path value) document draft.current).map fun members =>
      ⟨members, draft.current⟩

end Draft

def dropMark : List Char → List Char
  | '\uFEFF' :: rest => rest
  | cs => cs

def ofLines? (lines : List Line) : Option Toml :=
  (lines.foldlM Draft.add Draft.start).map fun draft => .table .header draft.members

def ofText? (s : String) : Option Toml :=
  (lines (dropMark s.toList)).bind ofLines?

end RightsPolicy.Toml
