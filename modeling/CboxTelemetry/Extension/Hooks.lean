import CboxTelemetry.Extension.Operations
import CboxTelemetry.Lib.Chain
import CboxTelemetry.Lib.Run
import Mathlib.Logic.Function.Basic

/-!
# Hooks on internal functions

`hooks.c` takes the place of the handlers of a few internal functions, each with a handler of its own that
calls the one it found. Other extensions do the same, before and after, so the handler of a function is the
top of a chain that ends at the function's own.

The tables of the engine are as they are at the first request. What a handler of another extension does
besides calling the one it has replaced is left out, and so are the arguments of the calls.
-/

namespace CboxTelemetry.Extension

variable {F A : Type*}

/-- What `internal_function.handler` can point to: the function's own handler, one of `cbox_hook_handlers`, or
another extension's. -/
inductive ZifHandler (F A : Type*)
  | own (f : F)
  | cbox (index : Nat)
  | other (a : A)
  deriving DecidableEq

/-- `CG(function_table)` and `CG(class_table)` with the functions of each class, all by their names in lower
case. `internal` are the functions of `ZEND_INTERNAL_FUNCTION` type, and `native` those of them that have a
handler. -/
structure Engine (F : Type*) where
  functionTable : Bytes → Option F
  classTable : Bytes → Option (Bytes → Option F)
  internal : F → Bool
  native : F → Bool

def zendStrTolower (name : Bytes) : Bytes := name.map fun b => if 65 ≤ b ∧ b ≤ 90 then b + 32 else b

/-- `cbox_find_function`. -/
def Engine.findFunction (e : Engine F) (className : Option Bytes) (functionName : Bytes) : Option F :=
  match className with
  | none => e.functionTable (zendStrTolower functionName)
  | some className =>
    match e.classTable (zendStrTolower className) with
    | none => none
    | some functions => functions (zendStrTolower functionName)

/-! ## What is hooked -/

/-- `CBOX_GROUP_PDO` and the others. -/
inductive HookGroup
  | pdo
  | redis
  | curl
  | streams
  deriving DecidableEq

def HookGroup.label : HookGroup → Bytes
  | .pdo => ascii "pdo"
  | .redis => ascii "redis"
  | .curl => ascii "curl"
  | .streams => ascii "streams"

/-- The arguments of `cbox_hook_add`. -/
structure HookRequest where
  group : HookGroup
  className : Option Bytes
  functionName : Bytes
  op : OpType

/-- What the configuration asks for. -/
structure HookFlags where
  pdo : Bool
  redis : Bool
  curl : Bool
  streams : Bool

def HookFlags.asksFor (flags : HookFlags) : HookGroup → Bool
  | .pdo => flags.pdo
  | .redis => flags.redis
  | .curl => flags.curl
  | .streams => flags.streams

/-- The calls of `cbox_hook_add` for one group. -/
def HookGroup.requests : HookGroup → List HookRequest
  | .pdo => [
      ⟨.pdo, some (ascii "PDO"), ascii "__construct", .pdoConnect⟩,
      ⟨.pdo, some (ascii "PDO"), ascii "connect", .pdoConnect⟩,
      ⟨.pdo, some (ascii "Pdo\\Mysql"), ascii "connect", .pdoConnect⟩,
      ⟨.pdo, some (ascii "Pdo\\Pgsql"), ascii "connect", .pdoConnect⟩,
      ⟨.pdo, some (ascii "Pdo\\Sqlite"), ascii "connect", .pdoConnect⟩,
      ⟨.pdo, some (ascii "Pdo\\Odbc"), ascii "connect", .pdoConnect⟩,
      ⟨.pdo, some (ascii "Pdo\\Firebird"), ascii "connect", .pdoConnect⟩,
      ⟨.pdo, some (ascii "Pdo\\Dblib"), ascii "connect", .pdoConnect⟩]
  | .redis => [
      ⟨.redis, some (ascii "Redis"), ascii "connect", .redisConnect⟩,
      ⟨.redis, some (ascii "Redis"), ascii "pconnect", .redisPconnect⟩]
  | .curl => [⟨.curl, none, ascii "curl_exec", .curlExec⟩]
  | .streams => [
      ⟨.streams, none, ascii "stream_socket_client", .streamConnect⟩,
      ⟨.streams, none, ascii "fsockopen", .streamConnect⟩]

/-- The calls of `cbox_hook_add` in `cbox_hooks_install`. -/
def HookFlags.requests (flags : HookFlags) : List HookRequest :=
  [HookGroup.pdo, .redis, .curl, .streams].flatMap fun group =>
    if flags.asksFor group then group.requests else []

/-! ## The statics -/

/-- `cbox_hook`. -/
structure Hook (F A : Type*) where
  className : Option Bytes
  functionName : Bytes
  op : OpType
  original : ZifHandler F A
  target : F
  installed : Bool

/-- `cbox_hook_group` without its label. -/
structure HookCounts where
  requested : Bool
  installed : Nat
  missing : Nat
  deriving DecidableEq

/-- The handlers of the engine's functions, what each handler of another extension has replaced, and the
statics of `hooks.c`. -/
structure Hooked (F A : Type*) where
  handler : F → Option (ZifHandler F A)
  replaced : A → Option (ZifHandler F A)
  hooks : Nat → Option (Hook F A)
  hookCount : Nat
  hooksDone : Bool
  groups : HookGroup → HookCounts
  names : List Bytes
  summary : Bytes

def hookMax : Nat := 16

/-- The size of an entry of `cbox_hook_names`. -/
def hookNameSize : Nat := 64

/-- `snprintf` into `cbox_hook_names`. -/
def HookRequest.name (r : HookRequest) : Bytes :=
  match r.className with
  | some className => (className ++ ascii "::" ++ r.functionName).take (hookNameSize - 1)
  | none => r.functionName.take (hookNameSize - 1)

namespace Hooked

/-- At the first request: every function has its own handler. -/
def blank (e : Engine F) : Hooked F A where
  handler f := if e.native f then some (.own f) else none
  replaced _ := none
  hooks _ := none
  hookCount := 0
  hooksDone := false
  groups _ := ⟨false, 0, 0⟩
  names := []
  summary := []

/-- Whom a handler calls. -/
def calls (s : Hooked F A) : ZifHandler F A → Option (ZifHandler F A)
  | .own _ => none
  | .cbox index => (s.hooks index).map Hook.original
  | .other a => s.replaced a

/-- The function that a request finds, if it can be hooked, and the handler it has. -/
def available (e : Engine F) (s : Hooked F A) (r : HookRequest) : Option (F × ZifHandler F A) :=
  match e.findFunction r.className r.functionName with
  | none => none
  | some target =>
    if !e.internal target then none
    else (s.handler target).map fun original => (target, original)

def countMissing (s : Hooked F A) (group : HookGroup) : Hooked F A := { s with
  groups := Function.update s.groups group
    { s.groups group with missing := (s.groups group).missing + 1 } }

def countInstalled (s : Hooked F A) (group : HookGroup) : Hooked F A := { s with
  groups := Function.update s.groups group
    { s.groups group with installed := (s.groups group).installed + 1 } }

variable [DecidableEq F]

/-- The handler of a function is replaced by the next of `cbox_hook_handlers`. -/
def hook (s : Hooked F A) (r : HookRequest) (target : F) (original : ZifHandler F A) : Hooked F A := { s with
  hooks := Function.update s.hooks s.hookCount
    (some ⟨r.className, r.functionName, r.op, original, target, true⟩)
  handler := Function.update s.handler target (some (.cbox s.hookCount))
  hookCount := s.hookCount + 1
  names := if s.names.length < hookMax then s.names ++ [r.name] else s.names }

/-- `cbox_hook_add`. -/
def hookAdd (e : Engine F) (s : Hooked F A) (r : HookRequest) : Hooked F A :=
  if hookMax ≤ s.hookCount then s
  else
    match s.available e r with
    | none => s.countMissing r.group
    | some (target, original) => (s.hook r target original).countInstalled r.group

/-- `cbox_hooks_build_summary`. -/
def buildSummary (flags : HookFlags) : Bytes :=
  let summary := [HookGroup.pdo, .redis, .curl, .streams].foldl (fun (summary : Bytes) group =>
    if flags.asksFor group then
      summary ++ (if summary = [] then group.label else ascii "," ++ group.label)
    else summary) []
  if summary = [] then ascii "none" else summary

/-- What `cbox_hooks_install` notes before it hooks anything. -/
def announce (s : Hooked F A) (flags : HookFlags) : Hooked F A := { s with
  hooksDone := true
  summary := buildSummary flags
  groups := fun group => { s.groups group with requested := flags.asksFor group } }

/-- `cbox_hooks_install`. -/
def hooksInstall (e : Engine F) (s : Hooked F A) (flags : HookFlags) : Hooked F A :=
  if s.hooksDone then s else flags.requests.foldl (hookAdd e) (s.announce flags)

/-- `cbox_hooks_active`. -/
def hooksActive (s : Hooked F A) : Bytes := if s.summary = [] then ascii "none" else s.summary

variable [DecidableEq A]

/-- One turn of the loop of `cbox_hooks_uninstall`. -/
def unhook (s : Hooked F A) (index : Nat) : Hooked F A :=
  match s.hooks index with
  | none => s
  | some hook => { s with
    handler :=
      if hook.installed = true ∧ s.handler hook.target = some (.cbox index) then
        Function.update s.handler hook.target (some hook.original)
      else s.handler
    hooks := Function.update s.hooks index (some { hook with installed := false }) }

/-- `cbox_hooks_uninstall`. -/
def hooksUninstall (s : Hooked F A) : Hooked F A :=
  { (List.range s.hookCount).foldl unhook s with hookCount := 0, hooksDone := false }

end Hooked

/-! ## Steps -/

/-- What happens to the handlers: the extension's request hook and its end, and another extension that puts a
handler on top of a function's, or takes it away again. -/
inductive HookAction (F A : Type*)
  | install (flags : HookFlags)
  | uninstall
  | wrap (f : F) (a : A)
  | unwrap (f : F) (a : A)

variable [DecidableEq F] [DecidableEq A]

/-- One step. Another extension has a handler for each function it hooks, and takes one away only where it
still is on top. -/
def Hooked.step (e : Engine F) (s : Hooked F A) : HookAction F A → Option (Hooked F A)
  | .install flags => some (s.hooksInstall e flags)
  | .uninstall => some s.hooksUninstall
  | .wrap f a =>
    if s.replaced a = none ∧ s.handler f ≠ none then
      some { s with
        handler := Function.update s.handler f (some (.other a))
        replaced := Function.update s.replaced a (s.handler f) }
    else none
  | .unwrap f a =>
    if s.handler f = some (.other a) then
      some { s with handler := Function.update s.handler f (s.replaced a) }
    else none

/-- The step relation. -/
def HookSteps (e : Engine F) (s : Hooked F A) (a : HookAction F A) (s' : Hooked F A) : Prop :=
  s.step e a = some s'

/-- The hooks are uninstalled at the end of the module, and not installed again where one is still in use. -/
def NotReused (s : Hooked F A) (a : HookAction F A) : Prop :=
  match a with
  | .install _ => s.hooksDone = false → ∀ index, s.hooks index = none
  | .uninstall | .wrap _ _ | .unwrap _ _ => True

end CboxTelemetry.Extension
