namespace EntityLink.CommandLine

/-- Why a run ends without a result. Paths are as the user gave them, causes as the system
words them. -/
inductive Failure
  | manifestSyntax
  | settingsSyntax
  | unreadManifest (path cause : String)
  | badManifest (path : String)
  | unreadSettings (path cause : String)
  | badSettings (path : String)
  | noOutputDirectory (path cause : String)
  | unwritten (path cause : String)
  | cancelled (message : String)
  deriving DecidableEq, Repr

def Failure.manifestFault : String := "Failed to parse entity manifest"

def Failure.settingsFault : String := "Failed to parse configuration"

def Failure.message : Failure → String
  | manifestSyntax => manifestFault
  | settingsSyntax => settingsFault
  | unreadManifest path cause => "Failed to read entity manifest " ++ path ++ ": " ++ cause
  | badManifest path => "Invalid entity manifest " ++ path ++ ": " ++ manifestFault
  | unreadSettings path cause => "Failed to read config file " ++ path ++ ": " ++ cause
  | badSettings path => "Invalid config file " ++ path ++ ": " ++ settingsFault
  | noOutputDirectory path cause => "Failed to create output directory " ++ path ++ ": " ++ cause
  | unwritten path cause => "Failed to write " ++ path ++ ": " ++ cause
  | cancelled message => message

end EntityLink.CommandLine
