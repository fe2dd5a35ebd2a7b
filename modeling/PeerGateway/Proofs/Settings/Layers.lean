import PeerGateway.Settings.File
import PeerGateway.Proofs.Schema.Tables
import PeerGateway.Proofs.Settings.Literals

/-!
# Settings from their layers

A `Settings.Field` is one of the settings, with its type (`Field.schema`), its place in the file
(`Field.path`) and its variable, if it has one (`Field.varName?`). Each is resolved on its own
(`Settings.load_resolves`): it is what its variable is set to, if that is a literal of its type
(`Field.IsSet`), or else what the file has at its place, or else the default (`Field.IsBelow`). The
truth value makes an exception: any other text in its variable makes it false, also where the file
says that it is true (`Settings.not_behindNat_kept`).
-/

namespace PeerGateway

namespace Settings

/-! ## The fields -/

/-- One of the settings. -/
inductive Field
  | nodeId | listenAddress | advertiseAddress | httpPort | backendUrl | maxPeers | seedPeers
  | windowSecs | cpuWeight | memoryWeight | rpsWeight | latencyWeight
  | scoreThreshold | relayTimeoutMs
  | behindNat | punchTimeoutMs
  | requestTimeoutMs | staleGraceSecs
  deriving DecidableEq

namespace Field

/-- The type of a setting. -/
@[reducible] def schema : Field → Schema
  | nodeId | listenAddress | advertiseAddress | backendUrl => .text
  | httpPort => .word16
  | seedPeers => .list .text
  | cpuWeight | memoryWeight | rpsWeight | latencyWeight | scoreThreshold => .real
  | behindNat => .flag
  | maxPeers | windowSecs | relayTimeoutMs | punchTimeoutMs | requestTimeoutMs | staleGraceSecs =>
    .word64

open Fields.Slot in
/-- The way to a setting in the file: its section and its place there. -/
def path : (f : Field) → Schema.Path Settings.schema f.schema
  | nodeId => .under here (.under here .here)
  | listenAddress => .under here (.under (there here) .here)
  | advertiseAddress => .under here (.under (there (there here)) .here)
  | httpPort => .under here (.under (there (there (there here))) .here)
  | backendUrl => .under here (.under (there (there (there (there here)))) .here)
  | maxPeers => .under here (.under (there (there (there (there (there here))))) .here)
  | seedPeers => .under here (.under (there (there (there (there (there (there here)))))) .here)
  | windowSecs => .under (there here) (.under here .here)
  | cpuWeight => .under (there here) (.under (there here) (.under here .here))
  | memoryWeight => .under (there here) (.under (there here) (.under (there here) .here))
  | rpsWeight => .under (there here) (.under (there here) (.under (there (there here)) .here))
  | latencyWeight =>
    .under (there here) (.under (there here) (.under (there (there (there here))) .here))
  | scoreThreshold => .under (there (there here)) (.under here .here)
  | relayTimeoutMs => .under (there (there here)) (.under (there here) .here)
  | behindNat => .under (there (there (there here))) (.under here .here)
  | punchTimeoutMs => .under (there (there (there here))) (.under (there here) .here)
  | requestTimeoutMs => .under (there (there (there (there here)))) (.under here .here)
  | staleGraceSecs => .under (there (there (there (there here)))) (.under (there here) .here)

/-- The variable of a setting. -/
def varName? : Field → Option String
  | nodeId => some "GATEMESH_NODE__NODE_ID"
  | listenAddress => some "GATEMESH_NODE__LISTEN_ADDR"
  | advertiseAddress => some "GATEMESH_NODE__ADVERTISE_ADDR"
  | httpPort => some "GATEMESH_NODE__HTTP_PORT"
  | backendUrl => some "GATEMESH_NODE__UPSTREAM_URL"
  | maxPeers => some "GATEMESH_NODE__MAX_PEERS"
  | seedPeers => some "GATEMESH_NODE__SEED_PEERS"
  | windowSecs => some "GATEMESH_METRICS__WINDOW_SECS"
  | scoreThreshold => some "GATEMESH_BALANCER__SCORE_THRESHOLD"
  | behindNat => some "GATEMESH_NAT__BEHIND_NAT"
  | _ => none

/-- What the variable of a setting is set to. -/
def text? (f : Field) (env : Environment) : Option String := f.varName?.bind env.text?

/-- The variable of a setting is set to a literal for a value. -/
def IsSet (f : Field) (env : Environment) (v : f.schema.Value) : Prop :=
  ∃ t, f.text? env = some t ∧ f.schema.IsLiteral t v

end Field

/-- The value of a field. -/
def get (s : Settings) : (f : Field) → f.schema.Value
  | .nodeId => s.nodeId
  | .listenAddress => s.listenAddress
  | .advertiseAddress => s.advertiseAddress
  | .httpPort => s.httpPort
  | .backendUrl => s.backendUrl
  | .maxPeers => s.maxPeers
  | .seedPeers => s.seedPeers
  | .windowSecs => s.windowSecs
  | .cpuWeight => s.weights.cpu
  | .memoryWeight => s.weights.memory
  | .rpsWeight => s.weights.rps
  | .latencyWeight => s.weights.latency
  | .scoreThreshold => s.scoreThreshold
  | .relayTimeoutMs => s.relayTimeoutMs
  | .behindNat => s.behindNat
  | .punchTimeoutMs => s.punchTimeoutMs
  | .requestTimeoutMs => s.requestTimeoutMs
  | .staleGraceSecs => s.staleGraceSecs

/-- The value that the file gives a field, or the default where it gives none. -/
def Field.IsBelow (f : Field) (t : Toml) (v : f.schema.Value) : Prop :=
  match f.path.part? t with
  | some found => f.schema.ofToml? found = some v
  | none => v = default.get f

theorem Field.isSet_iff {f : Field} {env : Environment} {v : f.schema.Value} :
    f.IsSet env v ↔ (f.text? env).bind f.schema.literal? = some v := by
  simp only [IsSet, Option.bind_eq_some_iff, Schema.literal?_eq_some_iff]

theorem Field.not_isSet {f : Field} {env : Environment}
    (h : (f.text? env).bind f.schema.literal? = none) (v : f.schema.Value) : ¬f.IsSet env v := by
  rw [isSet_iff, h]
  nofun

/-! ## Layers -/

namespace Layer

/-- The value that a layer gives a field. -/
def get? (l : Layer) : (f : Field) → Option f.schema.Value
  | .nodeId => l.nodeId
  | .listenAddress => l.listenAddress
  | .advertiseAddress => l.advertiseAddress
  | .httpPort => l.httpPort
  | .backendUrl => l.backendUrl
  | .maxPeers => l.maxPeers
  | .seedPeers => l.seedPeers
  | .windowSecs => l.windowSecs
  | .cpuWeight => l.weights.cpu
  | .memoryWeight => l.weights.memory
  | .rpsWeight => l.weights.rps
  | .latencyWeight => l.weights.latency
  | .scoreThreshold => l.scoreThreshold
  | .relayTimeoutMs => l.relayTimeoutMs
  | .behindNat => l.behindNat
  | .punchTimeoutMs => l.punchTimeoutMs
  | .requestTimeoutMs => l.requestTimeoutMs
  | .staleGraceSecs => l.staleGraceSecs

theorem get_onto (l : Layer) (s : Settings) (f : Field) :
    (l.onto s).get f = (l.get? f).getD (s.get f) := by
  cases f <;> rfl

/-- The layer of a file has the values that the record read of it has. -/
theorem get?_ofValue (x : Settings.schema.Value) (f : Field) :
    (ofValue x).get? f = f.path.get? x := by
  obtain ⟨node, metrics, balancer, nat, network, ⟨⟩⟩ := x
  cases f with
  | nodeId | listenAddress | advertiseAddress | httpPort | backendUrl | maxPeers | seedPeers =>
    cases node with
    | none => rfl
    | some section_ => exact (Option.bind_fun_some _).symm
  | windowSecs =>
    cases metrics with
    | none => rfl
    | some section_ => exact (Option.bind_fun_some _).symm
  | cpuWeight | memoryWeight | rpsWeight | latencyWeight =>
    cases metrics with
    | none => rfl
    | some section_ =>
      obtain ⟨-, weights, ⟨⟩⟩ := section_
      cases weights with
      | none => rfl
      | some weights => exact (Option.bind_fun_some _).symm
  | scoreThreshold | relayTimeoutMs =>
    cases balancer with
    | none => rfl
    | some section_ => exact (Option.bind_fun_some _).symm
  | behindNat | punchTimeoutMs =>
    cases nat with
    | none => rfl
    | some section_ => exact (Option.bind_fun_some _).symm
  | requestTimeoutMs | staleGraceSecs =>
    cases network with
    | none => rfl
    | some section_ => exact (Option.bind_fun_some _).symm

/-- Each variable is read as a literal of its own field, but for that of the truth value. -/
theorem get?_ofEnvironment (env : Environment) {f : Field} (hf : f ≠ .behindNat) :
    (ofEnvironment env.text?).get? f = (f.text? env).bind f.schema.literal? := by
  cases f with
  | behindNat => exact absurd rfl hf
  | nodeId | listenAddress | advertiseAddress | backendUrl => exact (Option.bind_fun_some _).symm
  | httpPort | maxPeers | windowSecs => exact Option.map_bind
  | seedPeers => exact Option.map_eq_bind
  | _ => rfl

/-- The variable of the truth value is taken for a value whatever text it is set to. -/
theorem get?_ofEnvironment_behindNat (env : Environment) :
    (ofEnvironment env.text?).get? .behindNat =
      (Field.behindNat.text? env).map fun t => t == "true" || t == "1" := rfl

variable {env : Environment} {f : Field} {v : f.schema.Value}

/-- A literal in its variable gives a field its value. -/
theorem get?_of_isSet (h : f.IsSet env v) : (ofEnvironment env.text?).get? f = some v := by
  by_cases hf : f = .behindNat
  · subst hf
    obtain ⟨t, ht, hv⟩ := h
    rw [get?_ofEnvironment_behindNat, ht, Option.map_some]
    obtain ⟨rfl | rfl, rfl⟩ | ⟨rfl | rfl, rfl⟩ := hv <;> rfl
  · rw [get?_ofEnvironment env hf]
    exact Field.isSet_iff.mp h

/-- Without a literal a field gets no value, but for the truth value whose variable is set. -/
theorem get?_of_not_isSet (h : ∀ v, ¬f.IsSet env v) (hf : f = .behindNat → f.text? env = none) :
    (ofEnvironment env.text?).get? f = none := by
  by_cases heq : f = .behindNat
  · have hnone := hf heq
    subst heq
    rw [get?_ofEnvironment_behindNat, hnone, Option.map_none]
  · rw [get?_ofEnvironment env heq, Option.eq_none_iff_forall_ne_some]
    exact fun v hv => h v (Field.isSet_iff.mpr hv)

/-- The truth value is false by a text that is no literal. -/
theorem get?_behindNat_of_misread (hset : (Field.behindNat.text? env).isSome = true)
    (h : ∀ v, ¬Field.behindNat.IsSet env v) :
    (ofEnvironment env.text?).get? .behindNat = some false := by
  obtain ⟨t, ht⟩ := Option.isSome_iff_exists.mp hset
  rw [get?_ofEnvironment_behindNat, ht, Option.map_some, Option.some.injEq, Bool.or_eq_false_iff,
    beq_eq_false_iff_ne, beq_eq_false_iff_ne]
  exact ⟨fun heq => h true ⟨t, ht, .inl ⟨.inl heq, rfl⟩⟩,
    fun heq => h true ⟨t, ht, .inl ⟨.inr heq, rfl⟩⟩⟩

/-- The value that the variables give a field depends on the variable of this field only. -/
theorem get?_ofEnvironment_congr {env' : Environment} (h : f.text? env' = f.text? env) :
    (ofEnvironment env'.text?).get? f = (ofEnvironment env.text?).get? f := by
  by_cases hf : f = .behindNat
  · subst hf
    rw [get?_ofEnvironment_behindNat, get?_ofEnvironment_behindNat, h]
  · rw [get?_ofEnvironment env' hf, get?_ofEnvironment env hf, h]

end Layer

/-! ## What is loaded -/

/-- The table of the settings file; an empty one where there is no file. -/
def fileTable? (files : Files) (path : String) : Option Toml :=
  if files.has path then ((files.read path).toOption.bind Bytes.text?).bind Toml.parse?
  else some (.table .header [])

variable {env : Environment} {files : Files} {t : Toml}

theorem readFile_eq {path : String} {x : schema.Value} (hfile : files.has path = true)
    (ht : fileTable? files path = some t) (hx : schema.ofToml? t = some x) :
    readFile files path = .ok (.ofValue x) := by
  rw [fileTable?, if_pos hfile] at ht
  obtain ⟨text, htext, hparse⟩ := Option.bind_eq_some_iff.mp ht
  obtain ⟨content, hcontent, htext⟩ := Option.bind_eq_some_iff.mp htext
  have hread : files.read path = .ok content := by
    cases hread : files.read path with
    | error fault => simp [hread, Except.toOption] at hcontent
    | ok c => simpa [hread, Except.toOption] using hcontent
  simp only [readFile, hread, htext, hparse, Option.bind_some, Layer.ofToml?, hx, Option.map_some]

/-- From a table that can be read, settings are loaded: those of its layer, with the variables. -/
theorem load_eq {x : schema.Value} (ht : fileTable? files (path env) = some t)
    (hx : schema.ofToml? t = some x) :
    load env files = .ok (resolve (.ofValue x) env.text?) := by
  unfold load
  by_cases hfile : files.has (path env) = true
  · simp only [hfile, if_true, readFile_eq hfile ht hx]
    rfl
  · rw [fileTable?, if_neg hfile] at ht
    obtain rfl := Option.some.inj ht
    obtain rfl : (none, none, none, none, none, ()) = x := Option.some.inj hx
    simp only [hfile]
    rfl

theorem get_resolve (file : Layer) (text? : String → Option String) (f : Field) :
    (resolve file text?).get f =
      ((Layer.ofEnvironment text?).get? f).getD ((file.onto default).get f) :=
  Layer.get_onto ..

/-- What the file gives a field is its value below the variables. -/
theorem isBelow_onto {x : schema.Value} (hx : schema.ofToml? t = some x) (f : Field) :
    f.IsBelow t (((Layer.ofValue x).onto default).get f) := by
  have hpart := Schema.Path.readsPart_of_ofToml? hx f.path
  rw [Layer.get_onto, Layer.get?_ofValue, Field.IsBelow]
  generalize f.path.part? t = found at hpart
  generalize f.path.get? x = value at hpart
  cases hpart with
  | none => rfl
  | some hv => exact hv

/-- From a file whose table can be read, or without a file, settings are loaded in which each field
has the value that its variable is set to, or without a literal there the value of the file, or
else the default. The truth value has it so only if its variable is not set to another text : with
one it is false. No other variable matters to a field. -/
theorem load_resolves (ht : fileTable? files (path env) = some t)
    (hfile : (schema.ofToml? t).isSome = true) :
    ∃ s, load env files = .ok s ∧
      (∀ (f : Field) (v : f.schema.Value), f.IsSet env v → s.get f = v) ∧
      (∀ f : Field, (∀ v, ¬f.IsSet env v) → (f = .behindNat → f.text? env = none) →
        f.IsBelow t (s.get f)) ∧
      ((Field.behindNat.text? env).isSome = true → (∀ v, ¬Field.behindNat.IsSet env v) →
        s.behindNat = false) ∧
      ∀ (env' : Environment) (files' : Files) (f : Field), fileTable? files' (path env') = some t →
        f.text? env' = f.text? env → ∃ s', load env' files' = .ok s' ∧ s'.get f = s.get f := by
  obtain ⟨x, hx⟩ := Option.isSome_iff_exists.mp hfile
  refine ⟨_, load_eq ht hx, fun f v hset => ?_, fun f hno hnat => ?_, fun hset hno => ?_,
    fun env' files' f ht' htext => ⟨_, load_eq ht' hx, ?_⟩⟩
  · rw [get_resolve, Layer.get?_of_isSet hset, Option.getD_some]
  · rw [get_resolve, Layer.get?_of_not_isSet hno hnat, Option.getD_none]
    exact isBelow_onto hx f
  · have hfalse := Layer.get?_behindNat_of_misread hset hno
    exact (get_resolve _ env.text? .behindNat).trans (by rw [hfalse, Option.getD_some])
  · rw [get_resolve, get_resolve, Layer.get?_ofEnvironment_congr htext]

/-- A file with some settings. -/
def someFiles : Files :=
  [(["c"], .file (Bytes.ofString
    "[node]\nhttp_port = 81\nmax_peers = 5\n\n[nat]\nbehind_nat = true\n"))]

/-- Variables of which one is a literal and two are not. -/
def someVariables : Environment :=
  [("GATEMESH_CONFIG", Bytes.ofString "c"), ("GATEMESH_NODE__HTTP_PORT", Bytes.ofString "+99"),
    ("GATEMESH_NODE__MAX_PEERS", Bytes.ofString "many"),
    ("GATEMESH_NAT__BEHIND_NAT", Bytes.ofString "yes")]

/-- The table of the file. -/
def someTable : Toml :=
  .table .header [("node", .table .header [("http_port", .whole 81), ("max_peers", .whole 5)]),
    ("nat", .table .header [("behind_nat", .flag true)])]

theorem fileTable?_someFiles : fileTable? someFiles (path someVariables) = some someTable := by rfl

theorem load_resolves_someVariables :
    fileTable? someFiles (path someVariables) = some someTable ∧
    (schema.ofToml? someTable).isSome = true ∧
    ∃ s, load someVariables someFiles = .ok s ∧ s.httpPort = 99 ∧ s.maxPeers = 5 ∧
      s.windowSecs = 60 ∧ s.behindNat = false := by
  refine ⟨fileTable?_someFiles, rfl, ?_⟩
  obtain ⟨s, hs, hset, hbelow, hmisread, -⟩ :=
    @load_resolves someVariables someFiles someTable fileTable?_someFiles rfl
  have hport : s.httpPort = 99 := hset .httpPort 99 ⟨"+99", rfl, Schema.literal?_eq_some_iff.mp rfl⟩
  have hpeers := hbelow .maxPeers (Field.not_isSet rfl) nofun
  have hwindow := hbelow .windowSecs (Field.not_isSet rfl) nofun
  exact ⟨s, hs, hport, (Option.some.inj hpeers).symm, hwindow, hmisread rfl (Field.not_isSet rfl)⟩

/-- A variable of the truth value that is set to no literal does not leave its field as the file has
it. -/
theorem not_behindNat_kept :
    ¬∀ (env : Environment) (files : Files) (t : Toml), fileTable? files (path env) = some t →
      (schema.ofToml? t).isSome = true → ∃ s, load env files = .ok s ∧
        ∀ f : Field, (∀ v, ¬f.IsSet env v) → f.IsBelow t (s.get f) := by
  intro hall
  obtain ⟨s, hs, hbelow⟩ := hall someVariables someFiles someTable fileTable?_someFiles rfl
  have htrue : some true = some s.behindNat := hbelow .behindNat (Field.not_isSet rfl)
  rw [load_eq fileTable?_someFiles rfl] at hs
  obtain rfl := Except.ok.inj hs
  exact absurd htrue (by decide)

end Settings

end PeerGateway
