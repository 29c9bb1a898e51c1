import XmemoryTemporal.Config
import XmemoryTemporal.Lib.Cleanup

/-! # The client of a worker

`openInstance` finds a key, opens a client with it and asks it for the handle of the instance; the client is
closed when the block that uses the handle ends. The package of the client is a parameter: each of its calls
may raise. `clientKwargs_ok` says what a client is constructed with. -/

namespace XmemoryTemporal.ClientFactory

open XmemoryTemporal.Config XmemoryTemporal.Lib.Cleanup

def defaultApiKeyEnv := "XMEM_API_KEY"

/-- The configuration with what the worker opens its client by. -/
structure WorkerConfig extends XmemoryConfig where
  instanceId : String
  url : Option String := none
  apiKeyEnv : String := defaultApiKeyEnv

/-- The `ValueError` of `resolve_api_key`. -/
structure ApiKeyNotFound where
  apiKeyEnv : String
  deriving DecidableEq

/-- Its text, in which the name of the variable stands as `repr` shows it. -/
def ApiKeyNotFound.message (repr : String → String) (e : ApiKeyNotFound) : String :=
  "xmemory API key not found: environment variable " ++ repr e.apiKeyEnv ++ " is unset or empty. " ++
    "Set it on the worker process, or pass XmemoryPlugin(config, api_key=...)."

/-- The environment of the process. -/
abbrev Environ : Type := String → Option String

/-- Read the API key from the environment. -/
def resolveApiKey (config : WorkerConfig) (environ : Environ) : Except ApiKeyNotFound String :=
  match environ config.apiKeyEnv with
  | some key => if key = "" then .error { apiKeyEnv := config.apiKeyEnv } else .ok key
  | none => .error { apiKeyEnv := config.apiKeyEnv }

/-- `api_key or config.resolve_api_key()`. -/
def keyOf (config : WorkerConfig) (environ : Environ) : Option String → Except ApiKeyNotFound String
  | some key => if key = "" then resolveApiKey config environ else .ok key
  | none => resolveApiKey config environ

/-- What `AsyncXmemoryClient` is constructed with; `τ` is the type of the caller's transports. -/
structure ClientKwargs (τ : Type) where
  apiKey : String
  timeout : ℚ
  httpClient : Option τ := none
  url : Option String := none

/-- The fallback of a client's calls, which every activity overrides. -/
def defaultTimeout (config : WorkerConfig) : ℚ :=
  clientTimeoutSeconds ({} : XmemoryTimeouts).readSeconds config.clientMarginSeconds

def clientKwargs {τ : Type} (config : WorkerConfig) (environ : Environ) (apiKey : Option String)
    (httpClient : Option τ) : Except ApiKeyNotFound (ClientKwargs τ) :=
  match keyOf config environ apiKey with
  | .error e => .error e
  | .ok key =>
    -- `url` and `http_client` together would be rejected
    match httpClient with
    | some transport => .ok { apiKey := key, timeout := defaultTimeout config, httpClient := some transport }
    | none => .ok { apiKey := key, timeout := defaultTimeout config, url := config.url }

/-- The package of the client: what its import, the constructor, `__aenter__`, `instance` and `__aexit__`
raise, if they do. -/
structure ClientLibrary (ε τ : Type) where
  imported : Except ε Unit
  construct : ClientKwargs τ → Except ε Unit
  aenter : Except ε Unit
  getInstance : String → Except ε Unit
  aexit : Except ε Unit

/-! ### The arguments -/

section Kwargs
variable {τ : Type} {config : WorkerConfig} {environ : Environ} {apiKey : Option String}
  {httpClient : Option τ} {key : String} {kwargs : ClientKwargs τ}

theorem resolveApiKey_ok (h : resolveApiKey config environ = .ok key) :
    key ≠ "" ∧ environ config.apiKeyEnv = some key := by
  unfold resolveApiKey at h
  rcases he : environ config.apiKeyEnv with _ | found
  · rw [he] at h
    cases h
  · rw [he] at h
    by_cases hempty : found = ""
    · simp [hempty] at h
    · simp only [if_neg hempty] at h
      injection h with h
      rw [← h]
      exact ⟨hempty, rfl⟩

theorem keyOf_ok (h : keyOf config environ apiKey = .ok key) :
    key ≠ "" ∧ (apiKey = some key ∨
      (apiKey = none ∨ apiKey = some "") ∧ environ config.apiKeyEnv = some key) := by
  unfold keyOf at h
  rcases apiKey with _ | given
  · obtain ⟨hne, hkey⟩ := resolveApiKey_ok h
    exact ⟨hne, Or.inr ⟨Or.inl rfl, hkey⟩⟩
  · by_cases hempty : given = ""
    · simp only [if_pos hempty] at h
      obtain ⟨hne, hkey⟩ := resolveApiKey_ok h
      exact ⟨hne, Or.inr ⟨Or.inr (by rw [hempty]), hkey⟩⟩
    · simp only [if_neg hempty] at h
      injection h with h
      subst h
      exact ⟨hempty, Or.inl rfl⟩

/-- What a client is constructed with: a key, which is the given one or else that of the environment, and
either the caller's transport or the configured address. -/
structure Proper (config : WorkerConfig) (environ : Environ) (apiKey : Option String)
    (httpClient : Option τ) (kwargs : ClientKwargs τ) : Prop where
  key : kwargs.apiKey ≠ ""
  source : apiKey = some kwargs.apiKey ∨
    (apiKey = none ∨ apiKey = some "") ∧ environ config.apiKeyEnv = some kwargs.apiKey
  transport : kwargs.httpClient = httpClient
  address : kwargs.url = if httpClient.isSome then none else config.url
  timeout : kwargs.timeout = defaultTimeout config

theorem clientKwargs_ok (h : clientKwargs config environ apiKey httpClient = .ok kwargs) :
    Proper config environ apiKey httpClient kwargs := by
  unfold clientKwargs at h
  rcases hk : keyOf config environ apiKey with e | key
  · rw [hk] at h
    cases h
  · rw [hk] at h
    obtain ⟨hne, hsource⟩ := keyOf_ok hk
    rcases httpClient with _ | transport
    · injection h with h
      subst h
      exact ⟨hne, hsource, rfl, rfl, rfl⟩
    · injection h with h
      subst h
      exact ⟨hne, hsource, rfl, rfl, rfl⟩

end Kwargs

end XmemoryTemporal.ClientFactory
