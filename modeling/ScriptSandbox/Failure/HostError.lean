import ScriptSandbox.Failure.SystemCode
import ScriptSandbox.Text.Quoted

namespace ScriptSandbox

inductive ErrorClass where
  | notFound | permissionDenied | invalidInput | invalidData | timedOut | other
deriving Repr, DecidableEq

namespace ErrorClass

def name : ErrorClass → String
  | notFound => "NotFound"
  | permissionDenied => "PermissionDenied"
  | invalidInput => "InvalidInput"
  | invalidData => "InvalidData"
  | timedOut => "TimedOut"
  | other => "Other"

def sentence : ErrorClass → String
  | notFound => "entity not found"
  | permissionDenied => "permission denied"
  | invalidInput => "invalid input parameter"
  | invalidData => "invalid data"
  | timedOut => "timed out"
  | other => "other error"

end ErrorClass

/-- Errors of input and output, each with a sentence for people and a text that shows its parts. -/
inductive HostError where
  /-- Reported by the operating system. -/
  | system (code : Int)
  | plain (kind : ErrorClass)
  | custom (kind : ErrorClass) (text : String)
  /-- A sentence that is the same each time. -/
  | constant (kind : ErrorClass) (text : String)
  /-- An error together with the path that it arose on. -/
  | atPath (path : String) (cause : HostError)
deriving Repr, DecidableEq

namespace HostError

def notUtf8 : HostError := .constant .invalidData "stream did not contain valid UTF-8"

def nulInPath : HostError := .constant .invalidInput "file name contained an unexpected NUL byte"

def nulInArgument : HostError := .constant .invalidInput "nul byte found in provided data"

def notRegular : HostError :=
  .constant .invalidInput
    "the source path is neither a regular file nor a symlink to a regular file"

def notDirectory : HostError := .custom .invalidInput "library path is not a directory"

def className : HostError → String
  | system code => SystemCode.className code
  | plain kind | custom kind _ | constant kind _ => kind.name
  | atPath _ cause => cause.className

def message : HostError → String
  | system code => SystemCode.sentence code ++ " (os error " ++ toString code ++ ")"
  | plain kind => kind.sentence
  | custom _ text | constant _ text => text
  | atPath path cause => cause.message ++ " at path " ++ quoted path

def debugText : HostError → String
  | system code =>
    "Os \x7b code: " ++ toString code ++ ", kind: " ++ SystemCode.className code ++
      ", message: " ++ quoted (SystemCode.sentence code) ++ " \x7d"
  | plain kind => "Kind(" ++ kind.name ++ ")"
  | custom kind text =>
    "Custom \x7b kind: " ++ kind.name ++ ", error: " ++ quoted text ++ " \x7d"
  | constant kind text =>
    "Error \x7b kind: " ++ kind.name ++ ", message: " ++ quoted text ++ " \x7d"
  | atPath path cause =>
    "Custom \x7b kind: " ++ cause.className ++ ", error: PathError \x7b path: " ++ quoted path ++
      ", err: " ++ cause.debugText ++ " \x7d \x7d"

end HostError
end ScriptSandbox
