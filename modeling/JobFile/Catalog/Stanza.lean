import JobFile.Record.Basic

/-!
# The catalog of blocks

* `Stanza`          : the blocks whose fields are fixed;
* `Stanza.keyword`, `Stanza.parents`, `Stanza.naming`, `Stanza.isContainer` : how each is written
  and where it may stand;
* `Stanza.fields`   : its fields, in the order in which they are read;
* `Stanza.Settings` : the values of its fields.
-/

namespace JobFile

/-- A block with a fixed list of fields. -/
inductive Stanza where
  | affinity
  | artifact
  | check
  | checkRestart
  | constraint
  | device
  | dispatchPayload
  | ephemeralDisk
  | group
  | logs
  | migrate
  | network
  | parameterized
  | periodic
  | port
  | reschedule
  | resources
  | restart
  | service
  | spread
  | target
  | task
  | template
  | update
  | vault
  deriving DecidableEq, Repr

/-- Does a block carry a name? -/
inductive Naming where
  | unnamed
  | named
  | nameable
  deriving DecidableEq, Repr

/-- The names that a block may carry. -/
abbrev Naming.Label : Naming → Type
  | .unnamed => Unit
  | .named => String
  | .nameable => Option String

/-- The name on a block, if it has one. -/
def Naming.label? : (n : Naming) → n.Label → Option String
  | .unnamed, _ => none
  | .named, name => some name
  | .nameable, name => name

/-- The label for a block when a name is given or not; none if a name is needed. -/
def Naming.ofName? : (n : Naming) → Option String → Option n.Label
  | .unnamed, _ => some ()
  | .named, name => name
  | .nameable, name => some name

/-- The driver of a task that names none. -/
def standardDriver : String := "exec"

namespace Stanza

/-- Every block of the catalog. -/
def all : List Stanza :=
  [affinity, artifact, check, checkRestart, constraint, device, dispatchPayload, ephemeralDisk,
    group, logs, migrate, network, parameterized, periodic, port, reschedule, resources, restart,
    service, spread, target, task, template, update, vault]

theorem mem_all (s : Stanza) : s ∈ all := by cases s <;> decide

/-- The keyword that opens a block. -/
def keyword : Stanza → String
  | affinity => "affinity"
  | artifact => "artifact"
  | check => "check"
  | checkRestart => "check_restart"
  | constraint => "constraint"
  | device => "device"
  | dispatchPayload => "dispatch_payload"
  | ephemeralDisk => "ephemeral_disk"
  | group => "group"
  | logs => "logs"
  | migrate => "migrate"
  | network => "network"
  | parameterized => "parameterized"
  | periodic => "periodic"
  | port => "port"
  | reschedule => "reschedule"
  | resources => "resources"
  | restart => "restart"
  | service => "service"
  | spread => "spread"
  | target => "target"
  | task => "task"
  | template => "template"
  | update => "update"
  | vault => "vault"

/-- The keywords of the blocks in which a block may stand. -/
def parents : Stanza → List String
  | affinity | constraint => ["job", "group", "task", "device"]
  | artifact | dispatchPayload | logs | resources | service | template => ["task"]
  | check => ["service"]
  | checkRestart => ["service", "check"]
  | device | network => ["resources"]
  | ephemeralDisk | restart | task => ["group"]
  | group | parameterized | periodic => ["job"]
  | migrate | reschedule | update => ["job", "group"]
  | port => ["network"]
  | spread | vault => ["job", "group", "task"]
  | target => ["spread"]

/-- Does the block carry a name? -/
def naming : Stanza → Naming
  | group | port | task => .named
  | device | target => .nameable
  | _ => .unnamed

/-- May the block hold other stanzas? -/
def isContainer : Stanza → Bool
  | check | device | group | network | resources | service | spread | task => true
  | _ => false

/-- Is the block written on one line when nothing is set? -/
def isShort : Stanza → Bool
  | port => true
  | _ => false

/-- The allowed payloads of a parameterized job. -/
def payloads : List String := ["optional", "required", "forbidden"]

/-- An optional field. -/
def field (kind : Kind) (name : String) : Field := { name, kind }

/-- A text without which a block is not written. -/
def requiredText (name : String) : Field := { name, kind := .text, required := true }

/-- The fields of a block, in the order in which they are read. -/
def fields : Stanza → List Field
  | affinity =>
    [requiredText "attribute", field .text "operator", requiredText "value",
      field .integer "weight"]
  | artifact =>
    [requiredText "source", field .text "destination", field .text "mode",
      field .textMap "options"]
  | check =>
    [field .text "address_mode", field .texts "args", field .text "command",
      field .text "grpc_service", field .flag "grpc_use_tls", field .text "initial_status",
      field .text "interval", field .text "method", field .text "name", field .text "path",
      field .text "port", field .text "protocol", field .text "timeout", field .text "type",
      field .flag "tls_skip_verify"]
  | checkRestart =>
    [field .integer "limit", field .text "grace", field .flag "ignore_warnings"]
  | constraint =>
    [field .text "attribute", field .text "operator", field .text "value"]
  | device => [field .integer "count"]
  | dispatchPayload => [requiredText "file"]
  | ephemeralDisk =>
    [field .flag "migrate", field .integer "size", field .flag "sticky"]
  | group => [field .integer "count"]
  | logs => [field .integer "max_files", field .integer "max_file_size"]
  | migrate =>
    [field .integer "max_parallel", field .text "health_check", field .text "min_healthy_time",
      field .text "healthy_deadline"]
  | network => [field .integer "mbits"]
  | parameterized =>
    [{ name := "payload", kind := .text, fallback := some "optional", choices := some payloads },
      field .texts "meta_optional", field .texts "meta_required"]
  | periodic =>
    [field .text "cron", field .flag "prohibit_overlap", field .text "time_zone"]
  | port => [field .integer "static"]
  | reschedule =>
    [field .integer "attempts", field .text "interval", field .text "delay",
      field .text "delay_function", field .text "max_delay", field .flag "unlimited"]
  | resources => [field .integer "cpu", field .integer "iops", field .integer "memory"]
  | restart =>
    [field .integer "attempts", field .text "delay", field .text "interval", field .text "mode"]
  | service =>
    [field .text "address_mode", field .texts "canary_tags", field .text "name",
      field .text "port", field .texts "tags"]
  | spread => [requiredText "attribute", field .integer "weight"]
  | target => [field .text "value", field .integer "percent"]
  | task =>
    [{ name := "driver", kind := .text, fallback := some standardDriver },
      field .text "kill_signal", field .text "kill_timeout", field .flag "leader",
      field .text "shutdown_delay", field .text "user"]
  | template =>
    [field .text "change_mode", field .text "change_signal", field .document "data",
      requiredText "destination", field .flag "env", field .text "left_delimiter",
      field .text "perms", field .text "right_delimiter", field .text "source",
      field .text "splay", field .text "vault_grace"]
  | update =>
    [field .integer "max_parallel", field .text "health_check", field .text "min_healthy_time",
      field .text "healthy_deadline", field .text "progress_deadline", field .flag "auto_revert",
      field .integer "canary", field .text "stagger"]
  | vault =>
    [field .text "change_mode", field .text "change_token", field .flag "env",
      field .texts "policies"]

/-- No field of a block is mandatory. -/
theorem not_mandatory (s : Stanza) : ∀ f ∈ s.fields, f.mandatory = false := by
  cases s <;> simp [fields, field, requiredText]

/-- The values of a block's fields. -/
abbrev Settings (s : Stanza) : Type := Record s.fields

/-- The settings with nothing set. -/
def blank (s : Stanza) : s.Settings := Record.blank s.fields s.not_mandatory

/-- A word with its first letter in upper case. -/
def capitalized (word : List Char) : List Char :=
  match word with
  | [] => []
  | c :: cs => c.toUpper :: cs

/-- The name under which messages know the settings of a block: the words of its keyword with
capitals, and a last word that tells what they are. -/
def recordName (s : Stanza) : String :=
  String.ofList ((s.keyword.toList.splitOn '_').flatMap capitalized) ++ "Options"

/-- The driver that the settings of a block announce for what stands in it.  Only tasks choose
one. -/
def driverWithin : (s : Stanza) → s.Settings → String → String
  | .task, .cons driver _, _ => driver.getD standardDriver
  | _, _, inherited => inherited

/-- The scripts of a block's fields in the order in which they are written.  A template names its
destination before its data; all other fields are written as they are read. -/
def arrange {α : Type} (s : Stanza) (xs : List α) : List α :=
  match s, xs with
  | .template, mode :: signal :: data :: destination :: rest =>
    mode :: signal :: destination :: data :: rest
  | _, _ => xs

end Stanza

end JobFile
