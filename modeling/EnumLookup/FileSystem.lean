import EnumLookup.Path

/-!
# File systems

The four things that the library asks of a file system. Each of them either succeeds or tells that
it did not.
-/

namespace EnumLookup

/-- A file system whose operations have effects of the kind `m`. -/
structure FileSystem (m : Type → Type) where
  /-- The text of a file, if there is one that can be read. -/
  read : Path → m (Option String)
  /-- A directory is made with all those above it, unless it exists. -/
  createDirectories : Path → m Bool
  /-- A file gets a content, in place of any it had. -/
  write : Path → String → m Bool
  /-- A file is moved over another path. -/
  rename : Path → Path → m Bool

end EnumLookup
