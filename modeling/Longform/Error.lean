/-!
# Errors

What can go wrong, by cause, and how each cause is worded. Problems met while
embeds are resolved are warnings and never become errors; what remains is fatal
for the export: a missing or unreadable root note, template or configuration,
and output that cannot be written.
-/

namespace Longform

/-- Why the file system refused a request. -/
inductive DiskFault where
  | missing
  | exists
  | notAFolder
  | isAFolder
  /-- The content of a file is not UTF-8 text. -/
  | notText
  /-- A path holds the null character. -/
  | nullInPath
  | nameTooLong
  | interrupted (message : String)
  | timedOut (message : String)
  | other (message : String)
  deriving DecidableEq

namespace DiskFault

/-- The wording of a refusal. -/
def message : DiskFault → String
  | .missing => "No such file or directory (os error 2)"
  | .exists => "File exists (os error 17)"
  | .notAFolder => "Not a directory (os error 20)"
  | .isAFolder => "Is a directory (os error 21)"
  | .notText => "stream did not contain valid UTF-8"
  | .nameTooLong => "File name too long (os error 36)"
  | .nullInPath => "file name contained an unexpected NUL byte"
  | .interrupted message => message
  | .timedOut message => message
  | .other message => message

/-- Whether the same request may succeed when it is made again. -/
def isPassing : DiskFault → Bool
  | .interrupted _ => true
  | .timedOut _ => true
  | _ => false

end DiskFault

/-- What is wrong with a configuration or the place it is kept in. -/
inductive ConfigFault where
  | unreadable (fault : DiskFault)
  | malformed (detail : String)
  | unwritable (fault : DiskFault)
  | noFolder (fault : DiskFault)
  /-- A setting has no written form. -/
  | unrepresentable (detail : String)
  /-- The path of the configuration file has no folder. -/
  | badPath
  | noHome
  | other (message : String)
  deriving DecidableEq

/-- The wording of a configuration problem. -/
def ConfigFault.message : ConfigFault → String
  | .unreadable fault => "Failed to read config: " ++ fault.message
  | .malformed detail => "Failed to parse config: " ++ detail
  | .unwritable fault => "Failed to write config: " ++ fault.message
  | .noFolder fault => "Failed to create config directory: " ++ fault.message
  | .unrepresentable detail => "Failed to serialize config: " ++ detail
  | .badPath => "Invalid config path"
  | .noHome => "Failed to determine project directories"
  | .other message => message

/-- The failure of an operation. -/
inductive Error where
  | disk (fault : DiskFault)
  | parse (detail : String)
  | notFound (what : String)
  | config (fault : ConfigFault)
  /-- A data format was read or written that does not allow it. -/
  | serialization (detail : String)
  /-- A search pattern is malformed. -/
  | template (detail : String)
  | clipboard (detail : String)
  deriving DecidableEq

namespace Error

/-- The wording of a failure. -/
def message : Error → String
  | .disk fault => "IO error: " ++ fault.message
  | .parse detail => "Parse error: " ++ detail
  | .notFound what => "Not found: " ++ what
  | .config fault => "Configuration error: " ++ fault.message
  | .serialization detail => "Serialization error: " ++ detail
  | .template detail => "Template error: " ++ detail
  | .clipboard detail => "Clipboard error: " ++ detail

/-- The kind of a failure in one word. -/
def category : Error → String
  | .disk _ => "io"
  | .parse _ => "parse"
  | .notFound _ => "not_found"
  | .config _ => "config"
  | .serialization _ => "serialization"
  | .template _ => "template"
  | .clipboard _ => "clipboard"

/-- Whether trying again may help. Only a passing refusal of the file system qualifies; everything
else is a property of the input. -/
def isRecoverable : Error → Bool
  | .disk fault => fault.isPassing
  | _ => false

end Error

end Longform
