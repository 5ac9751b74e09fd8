namespace RightsPolicy

inductive FileFault where
  | absent
  | denied
  | notDirectory
  | directory
  | nameTooLong
  | notText
  | other (detail : String)
  deriving DecidableEq, Repr

namespace FileFault

def message : FileFault → String
  | .absent => "No such file or directory (os error 2)"
  | .denied => "Permission denied (os error 13)"
  | .notDirectory => "Not a directory (os error 20)"
  | .directory => "Is a directory (os error 21)"
  | .nameTooLong => "File name too long (os error 36)"
  | .notText => "stream did not contain valid UTF-8"
  | .other detail => detail

def ofNumber? : Nat → Option FileFault
  | 2 => some .absent
  | 13 => some .denied
  | 20 => some .notDirectory
  | 21 => some .directory
  | 36 => some .nameTooLong
  | _ => none

def isMissing : FileFault → Bool
  | .absent => true
  | .notDirectory => true
  | .nameTooLong => true
  | _ => false

end FileFault

end RightsPolicy
