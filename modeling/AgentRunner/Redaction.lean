import AgentRunner.Backtracking
import AgentRunner.TextLines
import AgentRunner.PyValue

/-! `_redact.py`, and the two excerpts of agent output that reach `events-*.jsonl`: the
`reason` of the give-up events and the `raw` of `transient_error_detected`. -/
namespace AgentRunner.Redaction
open Backtracking TextLines PyValue

def mask : String := "<redacted>"

def longFlags : List String :=
  ["--token", "--password", "--passwd", "--api-key", "--apikey", "--secret",
    "--secret-access-key", "--access-key", "--auth", "--authorization", "--client-secret",
    "--aws-session-token", "--bearer", "--auth-token", "--private-key"]

/-! ## Character classes -/

def isUpper (c : Char) : Bool := 'A' ≤ c && c ≤ 'Z'

def isLower (c : Char) : Bool := 'a' ≤ c && c ≤ 'z'

def isDigit (c : Char) : Bool := '0' ≤ c && c ≤ '9'

/-- `[A-Za-z0-9]`. -/
def isAlnum (c : Char) : Bool := isUpper c || isLower c || isDigit c

/-- `[A-Za-z0-9]` and the characters of a list. -/
def alnumOr (others : String) (c : Char) : Bool := isAlnum c || others.toList.contains c

def notSpace (c : Char) : Bool := !isSpace c

/-- The letter `re.IGNORECASE` compares a character as, where the pattern is ASCII. -/
def fold (c : Char) : Char :=
  if isUpper c then Char.ofNat (c.toNat + 32)
  else if c.toNat = 0x212A then 'k'
  else if c.toNat = 0x17F then 's'
  else if c.toNat = 0x130 ∨ c.toNat = 0x131 then 'i'
  else c

/-- A lower-case text under `(?i)`. -/
def folded (text : String) : Regex :=
  text.toList.foldr (fun c r => .seq (.chr (fold · == c)) r) .empty

/-- A class of lower-case characters under `(?i)`. -/
def foldedClass (p : Char → Bool) (c : Char) : Bool := p (fold c)

def sequence (parts : List Regex) : Regex := parts.foldr .seq .empty

/-- One or more characters of a class. -/
def some1 (p : Char → Bool) : Regex := .many p 1 none

/-- Any number of characters of a class. -/
def some0 (p : Char → Bool) : Regex := .many p 0 none

/-- `(?<![…])`: the character before is not of the class. -/
def notBehind (p : Char → Bool) : Regex := .edge fun previous _ => !previous.any p

/-- `\b`, over what the interpreter takes for a word character. -/
def boundary (word : Char → Bool) : Regex :=
  .edge fun previous next => previous.any word != next.any word

/-! ## The patterns -/

section Patterns
variable (word : Char → Bool)

/-- `[_-]?`. -/
def optionalJoin : Regex := .many "_-".toList.contains 0 (some 1)

def flagRe : Regex :=
  sequence [.group 1 (oneOf (longFlags.map folded)),
    .group 2 (.alt (some1 isSpace) (literal "=")), .group 3 (some1 notSpace)]

def shortUserRe : Regex :=
  sequence [notBehind (fun c => word c || c == '-'), literal "-u",
    .group 1 (.alt (some1 isSpace) (literal "=")),
    .notAhead (sequence [some0 notSpace, literal "://"]),
    .group 2 (sequence [some1 notSpace, literal ":", some1 notSpace])]

def headerNameRe : Regex :=
  sequence [boundary word,
    .group 1 (oneOf (["authorization", "proxy-authorization", "cookie", "set-cookie", "x-api-key",
      "x-auth-token", "x-amz-security-token"].map folded)),
    .group 2 (sequence [some0 isSpace, literal ":", some0 isSpace]),
    .group 3 (some1 fun c => !"\r\n".toList.contains c)]

def schemeRe : Regex :=
  sequence [boundary word,
    .group 1 (oneOf (["Bearer", "Basic", "Token", "ApiKey", "Digest", "Negotiate", "NTLM"].map
      literal)),
    .group 2 (some1 isSpace), .group 3 (.many (alnumOr "+/=._-") 12 none)]

def urlUserinfoRe : Regex :=
  sequence [.group 1 (sequence [.chr (foldedClass isLower),
      some0 (foldedClass fun c => isLower c || isDigit c || "+.-".toList.contains c),
      literal "://"]),
    .group 2 (some1 fun c => notSpace c && !"/@".toList.contains c), literal "@"]

def urlQueryRe : Regex :=
  sequence [.group 1 (sequence [.chr "?&#".toList.contains,
      oneOf [folded "access_token", sequence [folded "api", .many (· == '_') 0 (some 1),
        folded "key"], folded "token", folded "auth", folded "secret", folded "sig",
        folded "signature", folded "password", folded "client_secret",
        folded "x-amz-security-token", folded "x-amz-signature"],
      literal "="]),
    .group 2 (some1 fun c => notSpace c && !"&#".toList.contains c)]

/-- `[A-Za-z0-9_]` under `(?i)`. -/
def nameChar (c : Char) : Bool := isLower (fold c) || isDigit c || c == '_'

def envRe : Regex :=
  sequence [.group 1 (sequence [.edge fun previous _ => previous.all isSpace,
      .chr fun c => isLower (fold c) || c == '_', some0 nameChar,
      oneOf [folded "password", folded "passwd", folded "pwd", folded "token", folded "secret",
        sequence [folded "api", optionalJoin, folded "key"],
        sequence [folded "access", optionalJoin, folded "key"], folded "credential",
        sequence [folded "private", optionalJoin, folded "key"]],
      some0 nameChar]),
    literal "=", .group 2 (some1 notSpace)]

/-- A prefix and at least so many characters of a class. -/
def prefixed (text : String) (p : Char → Bool) (least : ℕ) : Regex :=
  sequence [literal text, .many p least none]

/-- A prefix and exactly so many characters of a class. -/
def prefixedExactly (text : String) (p : Char → Bool) (count : ℕ) : Regex :=
  sequence [literal text, .many p count (some count)]

def prefixRes : List Regex :=
  [prefixed "sk-ant-" (alnumOr "-_") 16, prefixed "sk-" isAlnum 16, prefixed "ghp_" isAlnum 20,
    prefixed "gho_" isAlnum 20, prefixed "ghs_" isAlnum 20, prefixed "ghu_" isAlnum 20,
    prefixed "github_pat_" (alnumOr "_") 20,
    sequence [literal "xox", .chr "bpars".toList.contains, prefixed "-" (alnumOr "-") 10],
    prefixed "xapp-" (alnumOr "-") 10,
    prefixedExactly "AKIA" (fun c => isDigit c || isUpper c) 16,
    prefixedExactly "ASIA" (fun c => isDigit c || isUpper c) 16,
    prefixedExactly "AIza" (alnumOr "_-") 35, prefixedExactly "glpat-" (alnumOr "_-") 20,
    prefixed "ya29." (alnumOr "._-") 20,
    sequence [oneOf [literal "sk", literal "rk", literal "pk"], literal "_",
      oneOf [literal "live", literal "test"], prefixed "_" isAlnum 16],
    prefixed "npm_" isAlnum 20, prefixed "hf_" isAlnum 20]

def prefixRe : Regex := sequence [notBehind isAlnum, oneOf prefixRes]

def jwtRe : Regex :=
  sequence [boundary word, literal "eyJ", some1 (alnumOr "_-"), literal ".",
    some1 (alnumOr "_-"), literal ".", some1 (alnumOr "_-")]

def pemRe : Regex :=
  sequence [literal "-----BEGIN ", some0 (fun c => isUpper c || c == ' '),
    literal "PRIVATE KEY-----", .lazily (fun _ => true), literal "-----END ",
    some0 (fun c => isUpper c || c == ' '), literal "PRIVATE KEY-----"]

/-- `redact_secrets`. -/
def redactSecrets (text : Text) : Text :=
  let out := pemRe.sub [.plain mask] text
  let out := envRe.sub [.captured 1, .plain "=", .plain mask] out
  let out := flagRe.sub [.captured 1, .captured 2, .plain mask] out
  let out := (shortUserRe word).sub [.plain "-u", .captured 1, .plain mask] out
  let out := (headerNameRe word).sub [.captured 1, .captured 2, .plain mask] out
  let out := (schemeRe word).sub [.captured 1, .captured 2, .plain mask] out
  let out := urlUserinfoRe.sub [.captured 1, .plain mask, .plain "@"] out
  let out := urlQueryRe.sub [.captured 1, .plain mask] out
  let out := (jwtRe word).sub [.plain mask] out
  prefixRe.sub [.plain mask] out

end Patterns

/-! ## The persisted excerpts -/

/-- `text[-n:]`, for a positive `n`. -/
def lastChars (n : ℕ) (text : Text) : Text := text.drop (text.length - n)

def rawCap : ℕ := 200

/-- The payload of a give-up event. -/
structure GiveUp where
  kind : String
  consecutive : ℤ
  exitCode : ℤ
  reason : Text
  deriving DecidableEq

/-- `_emit_giveup`, for a round log that reads as a text, or cannot be read. -/
def emitGiveup (word : Char → Bool) (kind : String) (consecutive exitCode : ℤ)
    (log : Option Text) : GiveUp :=
  let reason := match log with
    | some text => redactSecrets word (lastChars 2000 text)
    | none => []
  ⟨kind, consecutive, exitCode, reason⟩

/-- The payload of `transient_error_detected` that a classifier decides. -/
structure Transient where
  classification : String
  agent : String
  resetAtEpoch : ℤ
  raw : Text
  deriving DecidableEq

/-- What is read of a `rate_limit_event`: its type, and `_as_epoch` of its reset time. -/
structure RateLimitInfo where
  rateLimitType : String
  resetsAt : Option ℤ

/-- What is read of a `result` event: whether `is_error` is `True`, the status where it is
an integer, and the `str` of the result. -/
structure ResultEvent where
  isError : Bool
  apiErrorStatus : Option ℤ
  result : Text

def classifyTransientStatus : Option ℤ → Option String
  | none => none
  | some status =>
    if status = 429 then some "rate_limit_model"
    else if status ∈ ([500, 502, 503, 504, 529] : List ℤ) then some "api_transient_5xx"
    else if status = 408 then some "api_timeout"
    else none

/-- `_BACK_OFF_DEFAULTS`, over the classes of `classify_transient_status`. -/
def backOffDefault (classification : String) : ℤ :=
  if classification = "api_timeout" then 30 else 60

/-- `_classify_transient_error` of the claude plugin, at an integer epoch. -/
def classifyTransientError (epoch : ℤ) (rateLimitInfo : Option RateLimitInfo)
    (resultEvent : Option ResultEvent) : Option Transient :=
  match rateLimitInfo.filter (·.rateLimitType = "five_hour") with
  | some info =>
    some ⟨"rate_limit_account", "claude", info.resetsAt.getD (epoch + 300),
      (resultEvent.elim [] ResultEvent.result).take rawCap⟩
  | none =>
    match resultEvent.filter (·.isError) with
    | none => none
    | some event =>
      (classifyTransientStatus event.apiErrorStatus).map fun classification =>
        ⟨classification, "claude", epoch + backOffDefault classification,
          event.result.take rawCap⟩

/-- `emit_transient_error_detected`. -/
def emitTransientErrorDetected (word : Char → Bool) (detected : Transient) : Transient :=
  { detected with raw := redactSecrets word detected.raw }

/-- What is persisted of a round the claude plugin has read. -/
def persistedTransient (word : Char → Bool) (epoch : ℤ) (rateLimitInfo : Option RateLimitInfo)
    (resultEvent : Option ResultEvent) : Option Transient :=
  (classifyTransientError epoch rateLimitInfo resultEvent).map (emitTransientErrorDetected word)

end AgentRunner.Redaction
