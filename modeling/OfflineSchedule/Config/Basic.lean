import OfflineSchedule.Retry.Policy
import OfflineSchedule.Yaml.Decode
/-!
# The configuration

Where the server is, which con is shown, and how data is cached, retried and logged. Only the base
URL has no default.
-/

namespace OfflineSchedule

/-- Where cached records live. -/
inductive CacheBackend where
  /-- A database file, which outlives the process. -/
  | sqlite
  | memory
deriving DecidableEq, Repr

def CacheBackend.name : CacheBackend → String
  | sqlite => "sqlite"
  | memory => "memory"

structure CacheConfig where
  /-- Whether anything is cached. -/
  enabled : Bool := true
  backend : CacheBackend := .sqlite
  /-- The database file. -/
  path : Option String := none
  /-- The size in bytes to which memory is limited. -/
  quotaBytes : Option Nat := none
deriving DecidableEq, Repr

structure RetryConfig where
  baseDelayMs : Nat := 1500
  maxAttempts : Nat := 5
deriving DecidableEq, Repr

def RetryConfig.policy (r : RetryConfig) : Retry.Policy := ⟨.ofMillis r.baseDelayMs, r.maxAttempts⟩

structure Config where
  baseUrl : String
  timeoutSecs : Nat := 30
  /-- The con that is shown if none is asked for. -/
  defaultCon : Option String := none
  cache : CacheConfig := {}
  retry : RetryConfig := {}
  /-- Whether the con has announcements. -/
  announcements : Bool := true
  logFile : Option String := none
deriving DecidableEq, Repr

/-! ## Reading -/

open Yaml (Document Node)

def CacheConfig.read (d : Document) (n : Node) : Option CacheConfig := do
  let r ← d.record? ["enabled", "backend", "path", "quota_bytes"] n
  let enabled ← Document.withDefault? r "enabled" true d.bool?
  let backend ← Document.withDefault? r "backend" .sqlite
    (d.word? [("sqlite", CacheBackend.sqlite), ("memory", .memory)])
  let path ← Document.withDefault? r "path" none (d.optional? d.text?)
  let quotaBytes ← Document.withDefault? r "quota_bytes" none (d.optional? (d.nat? (Nat.pow 2 64)))
  return { enabled, backend, path, quotaBytes }

def RetryConfig.read (d : Document) (n : Node) : Option RetryConfig := do
  let r ← d.record? ["base_delay_ms", "max_attempts"] n
  let baseDelayMs ← Document.withDefault? r "base_delay_ms" 1500 (d.nat? (Nat.pow 2 64))
  let maxAttempts ← Document.withDefault? r "max_attempts" 5 (d.nat? (Nat.pow 2 32))
  return { baseDelayMs, maxAttempts }

namespace Config

/-- The base URL and the time-out. -/
def readApi (d : Document) (n : Node) : Option (String × Nat) := do
  let r ← d.record? ["base_url", "timeout_secs"] n
  let baseUrl ← Document.required? r "base_url" d.text?
  let timeoutSecs ← Document.withDefault? r "timeout_secs" 30 (d.nat? (Nat.pow 2 64))
  return (baseUrl, timeoutSecs)

def readLog (d : Document) (n : Node) : Option (Option String) := do
  let r ← d.record? ["file"] n
  Document.withDefault? r "file" none (d.optional? d.text?)

def read (d : Document) (n : Node) : Option Config := do
  let r ← d.record? ["api", "default_instance", "cache", "retry", "announcements", "log"] n
  let (baseUrl, timeoutSecs) ← Document.required? r "api" (readApi d)
  let defaultCon ← Document.withDefault? r "default_instance" none (d.optional? d.text?)
  let cache ← Document.withDefault? r "cache" {} (CacheConfig.read d)
  let retry ← Document.withDefault? r "retry" {} (RetryConfig.read d)
  let announcements ← Document.withDefault? r "announcements" true d.bool?
  let logFile ← Document.withDefault? r "log" none (readLog d)
  return { baseUrl, timeoutSecs, defaultCon, cache, retry, announcements, logFile }

/-- The configuration in a text. -/
def ofText (s : String) : Option Config :=
  (Document.ofText s.toList).bind fun d => read d d.root

end Config

end OfflineSchedule
