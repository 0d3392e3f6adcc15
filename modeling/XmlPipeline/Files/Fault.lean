set_option autoImplicit false

namespace XmlPipeline.Files

inductive ReadFault where
  | notFound
  | notAFolder
  | isAFolder
  | nameTooLong
  | nulInName
  | notUtf8
  | other (description : String)
  deriving DecidableEq, Repr

def ReadFault.message : ReadFault → String
  | .notFound => "No such file or directory (os error 2)"
  | .notAFolder => "Not a directory (os error 20)"
  | .isAFolder => "Is a directory (os error 21)"
  | .nameTooLong => "File name too long (os error 36)"
  | .nulInName => "file name contained an unexpected NUL byte"
  | .notUtf8 => "stream did not contain valid UTF-8"
  | .other description => description

end XmlPipeline.Files
