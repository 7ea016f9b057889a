import ExchangeEngine.GameManager.Invariant

/-!
# Calls that fail

Every operation reads before it writes, and throws only then. The exception is `force_new`, which
ends the active session before it looks for a scenario and before SQLite may refuse the new one.
-/

namespace ExchangeEngine

namespace GameManager

variable {g : GameManager} {db : GameTables} {row : GameSessionRow} {userId : Int}

end GameManager

end ExchangeEngine
