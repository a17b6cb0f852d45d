import Mathlib.Algebra.Order.Ring.Rat
import Mathlib.Data.List.Forall2
import TszyUlt.Lib.FirstFailure
import TszyUlt.Lib.Table

/-!
# The configuration of the servers

`ServerGroupMap` of `lygc/lyserver_config.hpp`, which is loaded from a JSON text. `load` empties the
groups and then reads the document field by field, so an exception leaves the groups of the servers
that were listed before the one that cannot be read.

`AllOrNothing` is what a caller is to expect, and `allOrNothing_iff` says when it holds: when there
is no document, when the document lists nothing but servers, in groups that are not empty
(`Proper`), or when the groups were already those that the failure leaves.

Scope. `nlohmann::json` is a value with the accessors that `load` uses, and what its parser makes of
a text is any function. The index of a group's loop is a natural number.
-/

set_option autoImplicit false
set_option relaxedAutoImplicit false

namespace TszyUlt.Lygc

open Lib

/-! ### Documents -/

/-- A value of `nlohmann::json`. -/
inductive Json
  | null
  | boolean (value : Bool)
  | integer (value : ℤ)
  | float (value : ℚ)
  | string (value : String)
  | array (elements : List Json)
  | object (members : List (String × Json))

namespace Json

/-- `size`. -/
def size : Json → ℕ
  | null => 0
  | array elements => elements.length
  | object members => members.length
  | _ => 1

/-- `items`. The elements of an array have their positions as keys, and a value that is no
container is the only item of itself. -/
def items (json : Json) : List (String × Json) :=
  match json with
  | null => []
  | array elements => elements.zipIdx.map fun element ↦ (toString element.2, element.1)
  | object members => members
  | _ => [("", json)]

/-- `operator[]` with an index, which throws for a value that is no array. -/
def index (json : Json) (position : ℕ) : Option Json :=
  match json with
  | array elements => elements[position]?
  | _ => none

/-- `operator[]` with a key. A key that is missing gets the value `null`, and so does every key of
`null`; another value throws. -/
def field (json : Json) (key : String) : Option Json :=
  match json with
  | null => some null
  | object members => some ((members.lookup key).getD null)
  | _ => none

/-- `get<std::string>`. -/
def getString : Json → Option String
  | string value => some value
  | _ => none

/-- A conversion from `double` to `int`, where the language leaves open what is made of a number
that does not fit. -/
def castInt (unfit : ℚ → ℤ) (value : ℚ) : ℤ :=
  let whole := value.num.tdiv value.den
  if -2 ^ 31 ≤ whole ∧ whole < 2 ^ 31 then whole else unfit value

/-- `get<int>`, which converts a boolean too. -/
def getInt (unfit : ℚ → ℤ) : Json → Option ℤ
  | boolean value => some value.toNat
  | integer value => some (value.bmod (2 ^ 32))
  | float value => some (castInt unfit value)
  | _ => none

/-- The keys of an object are different ones. -/
def KeysDiffer : Json → Prop
  | object members => (members.map Prod.fst).Nodup
  | _ => True

end Json

/-- What `json::parse` gives. -/
abbrev JsonDocument := {json : Json // json.KeysDiffer}

/-- `json::parse`, which throws for a text that is no JSON. -/
abbrev JsonParse := List UInt8 → Option JsonDocument

/-! ### Loading -/

/-- `ServerConfig`. -/
structure ServerConfig where
  name : String
  origin : BitVec 16
  host : String
  port : BitVec 16
  deriving DecidableEq, Repr

/-- `ServerConfig()`. -/
def ServerConfig.new : ServerConfig := ⟨"", 0, "", 0⟩

/-- `ServerGroupMap::groups`. -/
abbrev ServerGroups := Table String (List ServerConfig)

section Load

variable (unfit : ℚ → ℤ)

/-- The part of `load` for a server. -/
def readServer (jServ : Json) : Option ServerConfig := do
  let name ← (← jServ.field "name").getString
  let origin ← (← jServ.field "origin").getInt unfit
  let host ← (← jServ.field "host").getString
  let port ← (← jServ.field "port").getInt unfit
  return ⟨name, BitVec.ofInt 16 origin, host, BitVec.ofInt 16 port⟩

/-- The loop of `load` over a group: the groups, and whether it came to its end. -/
def loadGroup (servType : String) (jGroup : Json) (i rest : ℕ) (groups : ServerGroups) :
    ServerGroups × Bool :=
  match rest with
  | 0 => (groups, true)
  | rest + 1 =>
    match (jGroup.index i).bind (readServer unfit) with
    | none => (groups, false)
    | some servConf => loadGroup servType jGroup (i + 1) rest (groups.push servType servConf)

/-- The loop of `load` over the items of the document. -/
def loadItems (groups : ServerGroups) : List (String × Json) → ServerGroups × Bool
  | [] => (groups, true)
  | (key, value) :: items =>
    match loadGroup unfit key value 0 value.size groups with
    | (groups, false) => (groups, false)
    | (groups, true) => loadItems groups items

/-- `load`: the groups, and whether no exception was thrown. -/
def ServerGroups.load (jRoot : Json) : ServerGroups × Bool :=
  loadItems unfit Table.empty jRoot.items

/-- The groups and the code after an attempt to load a document. -/
def loadDocument (groups : ServerGroups) : Option JsonDocument → ServerGroups × ℤ
  | none => (groups, -1)
  | some jRoot =>
    match ServerGroups.load unfit jRoot.val with
    | (groups, true) => (groups, 0)
    | (groups, false) => (groups, -1)

variable (parse : JsonParse)

/-- `loadFromString`. -/
def loadFromString (groups : ServerGroups) (str : List UInt8) : ServerGroups × ℤ :=
  loadDocument unfit groups (parse str)

/-- `loadFromFile`, with what the file has if it can be opened. -/
def loadFromFile (groups : ServerGroups) (file : Option (List UInt8)) : ServerGroups × ℤ :=
  match file with
  | none => (groups, -2)
  | some contents => loadDocument unfit groups (parse contents)

end Load

/-! ### What a document lists -/

/-- The value of a number. -/
def Json.number : Json → Option ℚ
  | .integer value => some value
  | .float value => some value
  | _ => none

/-- A value describes a server. -/
structure ServerOf (members : List (String × Json)) (servConf : ServerConfig) : Prop where
  name : members.lookup "name" = some (.string servConf.name)
  origin : (members.lookup "origin").bind Json.number = some (servConf.origin.toNat : ℚ)
  host : members.lookup "host" = some (.string servConf.host)
  port : (members.lookup "port").bind Json.number = some (servConf.port.toNat : ℚ)

/-- A value is the description of a server. -/
def DescribesServer (jServ : Json) (servConf : ServerConfig) : Prop :=
  ∃ members, jServ = .object members ∧ ServerOf members servConf

/-- A value is the list of the descriptions of some servers. -/
def DescribesGroup (jGroup : Json) (group : List ServerConfig) : Prop :=
  ∃ elements, jGroup = .array elements ∧ List.Forall₂ DescribesServer elements group

/-- The groups are exactly those of a JSON object. -/
def DescribesGroups (jRoot : Json) (groups : ServerGroups) : Prop :=
  ∃ members, jRoot = .object members ∧
    ∀ servType, Option.Rel DescribesGroup (members.lookup servType) (groups servType)

/-- What is expected of an attempt to load a document: a failure leaves the groups as they were, and
after a success they are those of the document. -/
structure AllOrNothing (before : ServerGroups) (document : Option JsonDocument)
    (result : ServerGroups × ℤ) : Prop where
  failed : result.2 ≠ 0 → result.1 = before
  loaded : result.2 = 0 → ∃ jRoot, document = some jRoot ∧ DescribesGroups jRoot.val result.1

/-- A document has nothing but groups that are not empty, of descriptions of servers. -/
def Proper (jRoot : Json) : Prop :=
  ∃ members, jRoot = .object members ∧ ∀ member ∈ members, ∃ elements, member.2 = .array elements ∧
    elements ≠ [] ∧ ∀ jServ ∈ elements, ∃ servConf, DescribesServer jServ servConf

/-- The values at which the loop of a group looks. Where it cannot look at any, that is one that
cannot be read. -/
def Json.servers : Json → List Json
  | .array elements => elements
  | .null | .object [] => []
  | _ => [.null]

/-- The values at which `load` looks one after the other, with the types of their servers. -/
def listed (items : List (String × Json)) : List (String × Json) :=
  items.flatMap fun item ↦ item.2.servers.map fun jServ ↦ (item.1, jServ)

section Reading

variable (unfit : ℚ → ℤ)

/-- A server with its type, if it can be read. -/
def readListed (entry : String × Json) : Option (String × ServerConfig) :=
  (readServer unfit entry.2).map fun servConf ↦ (entry.1, servConf)

/-- Every value that is looked at can be read. -/
def AllReadable (jRoot : Json) : Prop :=
  ∀ entry ∈ listed jRoot.items, (readServer unfit entry.2).isSome

/-- The groups of the servers that are listed before the first value that cannot be read. -/
def beforeFault (jRoot : Json) : ServerGroups :=
  Table.grouped (readUntil (readListed unfit) (listed jRoot.items))

/-! ### The loops as one -/

/-- A server that can be read is put into its group. -/
def putListed (groups : ServerGroups) (entry : String × Json) : Option ServerGroups :=
  (readListed unfit entry).map fun read ↦ groups.push read.1 read.2

theorem loadGroup_array (servType : String) (before elements : List Json)
    (groups : ServerGroups) :
    loadGroup unfit servType (.array (before ++ elements)) before.length elements.length groups =
      foldUntil (putListed unfit) groups (elements.map fun jServ ↦ (servType, jServ)) := by
  induction elements generalizing before groups with
  | nil => rfl
  | cons jServ elements ih =>
    have hindex : (Json.array (before ++ jServ :: elements)).index before.length = some jServ := by
      simp [Json.index]
    rw [List.length_cons, loadGroup, hindex, Option.bind_some, List.map_cons, foldUntil, putListed,
      readListed]
    cases readServer unfit jServ with
    | none => rfl
    | some servConf =>
      have hrest := ih (before ++ [jServ]) (groups.push servType servConf)
      rw [List.append_assoc, List.singleton_append, List.length_append] at hrest
      exact hrest

/-- The loop over a group looks at its values one after the other. -/
theorem loadGroup_eq (servType : String) (jGroup : Json) (groups : ServerGroups) :
    loadGroup unfit servType jGroup 0 jGroup.size groups =
      foldUntil (putListed unfit) groups
        (jGroup.servers.map fun jServ ↦ (servType, jServ)) := by
  cases jGroup with
  | array elements => exact loadGroup_array unfit servType [] elements groups
  | object members =>
    cases members with
    | nil => rfl
    | cons member members => rfl
  | _ => rfl

theorem loadItems_eq (groups : ServerGroups) (items : List (String × Json)) :
    loadItems unfit groups items = foldUntil (putListed unfit) groups (listed items) := by
  induction items generalizing groups with
  | nil => rfl
  | cons item items ih =>
    rw [listed, List.flatMap_cons, foldUntil_append, ← loadGroup_eq, ← listed]
    obtain ⟨key, value⟩ := item
    rw [loadItems]
    split
    · rename_i hfault
      rw [hfault]
      rfl
    · rename_i hdone
      rw [hdone]
      exact ih _

/-- `load` reads the values that are listed until it finds one that cannot be read. -/
theorem load_eq (jRoot : Json) : ServerGroups.load unfit jRoot =
    (beforeFault unfit jRoot,
      (listed jRoot.items).all fun entry ↦ (readServer unfit entry.2).isSome) := by
  rw [ServerGroups.load, loadItems_eq]
  refine (foldUntil_read (readListed unfit) _ Table.empty _).trans (congrArg _ ?_)
  refine congrArg _ (funext fun entry ↦ ?_)
  rw [readListed, Option.isSome_map]

/-! ### Servers that are described -/

/-- A number that fits 16 bits is read as it is. -/
theorem getInt_of_number {value : Json} {number : BitVec 16}
    (hnumber : value.number = some (number.toNat : ℚ)) :
    value.getInt unfit = some (number.toNat : ℤ) := by
  have hlt : (number.toNat : ℤ) < 2 ^ 16 := by exact_mod_cast number.isLt
  cases value with
  | integer found =>
    have heq : found = number.toNat := by exact_mod_cast Option.some.inj hnumber
    rw [Json.getInt, heq]
    exact congrArg some (Int.bmod_eq_of_le (by omega) (by omega))
  | float found =>
    have heq : found = ((number.toNat : ℤ) : ℚ) := by exact_mod_cast Option.some.inj hnumber
    have hwhole : found.num.tdiv found.den = number.toNat := by
      rw [heq, Rat.num_intCast, Rat.den_intCast, Nat.cast_one, Int.tdiv_one]
    rw [Json.getInt, Json.castInt, hwhole]
    exact congrArg some (if_pos ⟨by omega, by omega⟩)
  | _ => cases hnumber

/-- The description of a server is read as this server. -/
theorem readServer_of_describes {jServ : Json} {servConf : ServerConfig}
    (hdescribes : DescribesServer jServ servConf) : readServer unfit jServ = some servConf := by
  obtain ⟨members, rfl, hserver⟩ := hdescribes
  obtain ⟨origin, horigin, hnumber⟩ := Option.bind_eq_some_iff.mp hserver.origin
  obtain ⟨port, hport, hnumber'⟩ := Option.bind_eq_some_iff.mp hserver.port
  simp only [readServer, Json.field, hserver.name, hserver.host, horigin, hport, Option.getD_some,
    Json.getString, getInt_of_number unfit hnumber, getInt_of_number unfit hnumber',
    Option.bind_eq_bind, Option.bind_some, Option.pure_def, BitVec.ofInt_natCast,
    BitVec.ofNat_toNat, BitVec.setWidth_eq]

/-- The values that are listed for a key of an object. -/
theorem filter_listed {members : List (String × Json)} (hkeys : (members.map Prod.fst).Nodup)
    (servType : String) :
    (listed members).filter (fun entry ↦ entry.1 = servType) =
      ((members.lookup servType).elim [] Json.servers).map fun jServ ↦ (servType, jServ) := by
  induction members with
  | nil => rfl
  | cons member members ih =>
    obtain ⟨key, value⟩ := member
    rw [List.map_cons, List.nodup_cons] at hkeys
    rw [listed, List.flatMap_cons, List.filter_append, ← listed, ih hkeys.2, List.filter_map]
    by_cases hkey : servType = key
    · subst hkey
      have hnone : members.lookup servType = none := by
        rw [List.lookup_eq_none_iff]
        intro other hmem
        have hne : servType ≠ other.1 :=
          fun heq ↦ hkeys.1 (List.mem_map.mpr ⟨other, hmem, heq.symm⟩)
        exact bne_iff_ne.mpr hne
      have hmine : value.servers.filter ((fun entry : String × Json ↦ decide (entry.1 = servType)) ∘
          fun jServ ↦ (servType, jServ)) = value.servers :=
        List.filter_eq_self.mpr fun _ _ ↦ decide_eq_true rfl
      rw [hnone, hmine, List.lookup_cons_self]
      exact List.append_nil _
    · have hother : (value.servers.filter
          ((fun entry : String × Json ↦ decide (entry.1 = servType)) ∘
            fun jServ ↦ (key, jServ))) = [] := by
        simp [Ne.symm hkey]
      rw [List.lookup_cons, beq_eq_false_iff_ne.mpr hkey, hother]
      rfl

/-! ### The groups after a load -/

/-- The server that a value is read as. -/
def serverOf (jServ : Json) : ServerConfig := (readServer unfit jServ).getD .new

/-- The group of a type, where every value can be read. -/
theorem beforeFault_apply {members : List (String × Json)}
    (hkeys : (members.map Prod.fst).Nodup) (hread : AllReadable unfit (.object members))
    (servType : String) :
    beforeFault unfit (.object members) servType =
      if (members.lookup servType).elim [] Json.servers = [] then none
      else some (((members.lookup servType).elim [] Json.servers).map (serverOf unfit)) := by
  have hall : ∀ entry ∈ listed members,
      readListed unfit entry = some (entry.1, serverOf unfit entry.2) := by
    intro entry hmem
    obtain ⟨servConf, hservConf⟩ := Option.isSome_iff_exists.mp (hread entry hmem)
    rw [readListed, serverOf, hservConf]
    rfl
  have hfilter : ((listed members).map fun entry ↦ (entry.1, serverOf unfit entry.2)).filter
      (fun entry ↦ entry.1 = servType) =
        ((members.lookup servType).elim [] Json.servers).map
          fun jServ ↦ (servType, serverOf unfit jServ) := by
    rw [List.filter_map]
    exact (congrArg _ (filter_listed hkeys servType)).trans List.map_map
  show Table.grouped (readUntil (readListed unfit) (listed members)) servType = _
  rw [readUntil_eq_map hall, Table.grouped_apply, hfilter, List.map_map]
  exact if_congr List.map_eq_nil_iff rfl rfl

/-- A document of descriptions of servers is loaded. -/
theorem describesGroups_of_proper {jRoot : Json} (hkeys : jRoot.KeysDiffer)
    (hproper : Proper jRoot) :
    AllReadable unfit jRoot ∧ DescribesGroups jRoot (beforeFault unfit jRoot) := by
  obtain ⟨members, rfl, hmembers⟩ := hproper
  have hread : AllReadable unfit (.object members) := by
    intro entry hmem
    obtain ⟨member, hmember, hentry⟩ := List.mem_flatMap.mp hmem
    obtain ⟨jServ, hjServ, rfl⟩ := List.mem_map.mp hentry
    obtain ⟨elements, hvalue, -, hservers⟩ := hmembers member hmember
    rw [hvalue] at hjServ
    obtain ⟨servConf, hdescribes⟩ := hservers jServ hjServ
    exact Option.isSome_iff_exists.mpr ⟨servConf, readServer_of_describes unfit hdescribes⟩
  refine ⟨hread, members, rfl, fun servType ↦ ?_⟩
  rw [beforeFault_apply unfit hkeys hread]
  cases hlookup : members.lookup servType with
  | none => exact .none
  | some value =>
    obtain ⟨first, rest, rfl, -⟩ := List.lookup_eq_some_iff.mp hlookup
    obtain ⟨elements, hvalue, hne, hservers⟩ :=
      hmembers _ (List.mem_append_right _ List.mem_cons_self)
    cases hvalue
    rw [Option.elim_some, Json.servers, if_neg hne]
    refine .some ⟨elements, rfl, ?_⟩
    rw [List.forall₂_map_right_iff, List.forall₂_same]
    intro jServ hmem
    obtain ⟨servConf, hdescribes⟩ := hservers jServ hmem
    rw [serverOf, readServer_of_describes unfit hdescribes]
    exact hdescribes

/-- A member of an object is what its key is looked up as. -/
theorem lookup_of_mem {members : List (String × Json)} (hkeys : (members.map Prod.fst).Nodup)
    {key : String} {value : Json} (hmem : (key, value) ∈ members) :
    members.lookup key = some value := by
  obtain ⟨first, rest, rfl⟩ := List.append_of_mem hmem
  refine List.lookup_eq_some_iff.mpr ⟨first, rest, rfl, fun other hother ↦ bne_iff_ne.mpr ?_⟩
  rw [List.map_append, List.nodup_append] at hkeys
  exact (hkeys.2.2 other.1 (List.mem_map_of_mem hother) key List.mem_cons_self).symm

/-- Only such documents are loaded as they should be. -/
theorem proper_of_describesGroups {jRoot : Json} (hkeys : jRoot.KeysDiffer)
    (hread : AllReadable unfit jRoot)
    (hgroups : DescribesGroups jRoot (beforeFault unfit jRoot)) : Proper jRoot := by
  obtain ⟨members, rfl, hmembers⟩ := hgroups
  refine ⟨members, rfl, fun ⟨key, value⟩ hmem ↦ ?_⟩
  have hgroup := hmembers key
  rw [beforeFault_apply unfit hkeys hread, lookup_of_mem hkeys hmem, Option.elim_some] at hgroup
  by_cases hempty : value.servers = []
  · rw [if_pos hempty] at hgroup
    cases hgroup
  · rw [if_neg hempty] at hgroup
    cases hgroup with
    | some hdescribes =>
      obtain ⟨elements, rfl, hservers⟩ := hdescribes
      rw [Json.servers, List.forall₂_map_right_iff, List.forall₂_same] at hservers
      exact ⟨elements, rfl, hempty, fun jServ hjServ ↦ ⟨_, hservers jServ hjServ⟩⟩

/-- When an attempt to load a document does what is expected: if there is none, or nothing is wrong
with it, or the groups were already those of the servers before the first one that cannot be
read. -/
def LoadsAsExpected (before : ServerGroups) : Option JsonDocument → Prop
  | none => True
  | some jRoot =>
    Proper jRoot.val ∨ ¬ AllReadable unfit jRoot.val ∧ before = beforeFault unfit jRoot.val

theorem allOrNothing_loadDocument_iff (groups : ServerGroups) (document : Option JsonDocument) :
    AllOrNothing groups document (loadDocument unfit groups document) ↔
      LoadsAsExpected unfit groups document := by
  cases document with
  | none =>
    have hcode : (-1 : ℤ) ≠ 0 := by decide
    exact iff_of_true ⟨fun _ ↦ rfl, fun hzero ↦ absurd hzero hcode⟩ trivial
  | some jRoot =>
    have hload := load_eq unfit jRoot.val
    by_cases hread : AllReadable unfit jRoot.val
    · have hresult : loadDocument unfit groups (some jRoot) =
          (beforeFault unfit jRoot.val, 0) := by
        rw [loadDocument, hload, List.all_eq_true.mpr hread]
      rw [hresult]
      constructor
      · intro hexpected
        obtain ⟨_, hsame, hgroups⟩ := hexpected.loaded rfl
        cases hsame
        exact Or.inl (proper_of_describesGroups unfit jRoot.property hread hgroups)
      · rintro (hproper | ⟨hfault, -⟩)
        · have hgroups := (describesGroups_of_proper unfit jRoot.property hproper).2
          exact ⟨fun hne ↦ absurd rfl hne, fun _ ↦ ⟨jRoot, rfl, hgroups⟩⟩
        · exact absurd hread hfault
    · have hresult : loadDocument unfit groups (some jRoot) =
          (beforeFault unfit jRoot.val, -1) := by
        rw [loadDocument, hload, Bool.eq_false_iff.mpr fun hall ↦ hread (List.all_eq_true.mp hall)]
      have hcode : (-1 : ℤ) ≠ 0 := by decide
      rw [hresult]
      constructor
      · exact fun hexpected ↦ Or.inr ⟨hread, (hexpected.failed hcode).symm⟩
      · rintro (hproper | ⟨-, hsame⟩)
        · exact absurd (describesGroups_of_proper unfit jRoot.property hproper).1 hread
        · exact ⟨fun _ ↦ hsame.symm, fun hzero ↦ absurd hzero hcode⟩

end Reading

/-- A text that has no port for its only server. -/
def portMissing : List UInt8 :=
  ("\x7b\"gate\": [\x7b\"name\": \"gate\", " ++
    "\"origin\": 107, \"host\": \"localhost\"\x7d]\x7d").toUTF8.toList

/-- The parser, as far as this text is concerned. -/
def parsePortMissing : JsonParse := fun str ↦
  if str = portMissing then
    some ⟨.object [("gate", .array [.object [("host", .string "localhost"),
      ("name", .string "gate"), ("origin", .integer 107)]])], List.pairwise_singleton _ _⟩
  else none

/-- The groups before the attempt. -/
def oneGroup : ServerGroups := Table.empty.push "logic" ⟨"logic", 101, "localhost", 35101⟩

end TszyUlt.Lygc
