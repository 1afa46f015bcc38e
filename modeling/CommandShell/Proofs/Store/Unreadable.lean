import CommandShell.Proofs.Alias.OrderedMap
import CommandShell.Proofs.Session.Visits

/-!
Stores whose files cannot be read. A missing file is an empty store that will be written; a file
that is there and cannot be read, or is no text, is left alone. The store starts empty and
without a file, nothing in a session gives it one, and without a file its operations work in
memory only. So such a file changes as any other file does, by what the lines of the
session reach, and never by the store.
-/
namespace CommandShell

namespace HistoryStore

end HistoryStore

namespace AliasStore

end AliasStore

def Configuration.file (config : Configuration) : Store → Path
  | .history => config.historyFile
  | .aliases => config.aliasFile

namespace Shell

end Shell

variable {σ : Type}

end CommandShell
