/-!
# The place of the database

The database is kept below the data directory of the user, which an environment variable names if it
is absolute.
-/

namespace OfflineSchedule.Cache

/-- Appends a relative path to a directory. -/
def joinPath (dir name : String) : String :=
  if dir.endsWith "/" then dir ++ name else dir ++ "/" ++ name

/-- A directory below `home`, unless an absolute path is set for it. -/
def userDirectory (set : Option String) (home standard : String) : String :=
  match set with
  | some dir => if dir.startsWith "/" then dir else joinPath home standard
  | none => joinPath home standard

/-- The home directory that is set, or the one of the account. -/
def homeDirectory (set : Option String) (account : String) : String :=
  match set with
  | none | some "" => account
  | some dir => dir

/-- Where the database is kept by default. -/
def defaultPath (dataHome : Option String) (home : String) : String :=
  joinPath (joinPath (userDirectory dataHome home ".local/share") "consched") "cache.db"

end OfflineSchedule.Cache
