import ServiceDoc.Proofs.Document.Servers
import ServiceDoc.Proofs.OpenApi.Dump

/-!
# What is lost with servers that are moved up

A server that is moved up is written anew, with its address alone. So a description, the variables
and the extensions of servers are kept exactly if those that are moved up or replaced have none.
-/

namespace ServiceDoc

open Element PathItem

namespace Servers

variable {document hoisted item moved element server other : Element} {url : Value}
  {outer : List Element}

/-! ## Servers with what they say -/

/-- A server says all that another one says: its address is alike, and whatever else is written of
it is the same. -/
structure SaysSame (server other : Element) : Prop where
  address : Alike [server.value? "url"] [other.value? "url"]
  rest : ∀ key, key ≠ .string "url" →
    Entries.get? other.dump key = Entries.get? server.dump key

/-- All servers of an element are kept among others. -/
def KeptAmong (others : List Element) (element : Element) : Prop :=
  ∀ server ∈ element.many "servers", ∃ other ∈ others, SaysSame server other

/-- The servers that hold for an element: its own if it has any, or else those that hold for what it
stands in. -/
def holding (outer : List Element) (element : Element) : List Element :=
  match element.many "servers" with
  | [] => outer
  | own => own

/-- The servers of a path and those of its operations are kept among those that hold for the path
and its operations now. -/
structure KeepsPath (outer : List Element) (item moved : Element) : Prop where
  own : KeptAmong (holding outer moved) item
  /-- The operations are the same ones. -/
  operations : ∀ verb ∈ Kind.verbs, Option.Rel (fun operation other =>
    KeptAmong (holding (holding outer moved) other) operation) (item.one? verb) (moved.one? verb)

/-- No server of a document, of its paths or of their operations is lost. -/
structure KeepsServers (document hoisted : Element) : Prop where
  own : KeptAmong (hoisted.many "servers") document
  /-- The paths are the same ones. -/
  paths : List.Forall₂ (fun entry moved => entry.1 = moved.1 ∧
    KeepsPath (hoisted.many "servers") entry.2 moved.2)
    (document.table "paths") (hoisted.table "paths")

/-- All servers of an element have an address like a given one, and say nothing else. -/
def HoldsOnly (url : Value) (element : Element) : Prop :=
  ∀ server ∈ element.many "servers", Alike [server.value? "url"] [some url] ∧
    ∀ key, key ≠ .string "url" → Entries.get? server.dump key = none

/-- If the operations of a path share an address, this is all that the servers of the path and of
the operations say. -/
def SharesAddressOnly (item : Element) : Prop :=
  ∀ url, urlsOf (operations item) = [url] →
    (∀ operation ∈ operations item, hasSole url operation) →
    HoldsOnly url item ∧ ∀ operation ∈ operations item, HoldsOnly url operation

/-- The servers of a document that are moved up or replaced have nothing but the address that is
shared. -/
structure HoistsAddressesOnly (document : Element) : Prop where
  paths : ∀ entry ∈ document.table "paths", SharesAddressOnly entry.2
  /-- The servers of paths are moved up to the document. -/
  own : ∀ url, urlsOfPaths (document.table "paths") = [url] → document.table "paths" ≠ [] →
    (∀ entry ∈ mapEntries hoistToPath (document.table "paths"), hasSole url entry.2) →
    HoldsOnly url document ∧
      ∀ entry ∈ document.table "paths", IsSettled entry.2 → HoldsOnly url entry.2

/-! ## The server that is put -/

theorem SaysSame.refl (server : Element) : SaysSame server server :=
  ⟨.refl _, fun _ _ => rfl⟩

theorem keptAmong_self (element : Element) : KeptAmong (element.many "servers") element :=
  fun server member => ⟨server, member, .refl server⟩

theorem keptAmong_holding (outer : List Element) (element : Element) :
    KeptAmong (holding outer element) element := by
  intro server member
  refine ⟨server, ?_, .refl server⟩
  unfold holding
  split
  next none => rw [none] at member; cases member
  next => exact member

theorem keepsPath_self (outer : List Element) (item : Element) : KeepsPath outer item item := by
  refine ⟨keptAmong_holding outer item, fun verb _ => ?_⟩
  cases item.one? verb with
  | none => exact .none
  | some operation => exact .some (keptAmong_holding _ operation)

/-- The server of an address. -/
def serverAt (url : Value) : Element := (Element.empty .server).set "url" (.value url)

theorem get?_dump_serverAt {key : Scalar} (other : key ≠ .string "url") :
    Entries.get? (serverAt url).dump key = none := by
  have known : (⟨"url", .value⟩ : Field) ∈ (Element.empty .server).kind.fields := by decide
  have distinct : ((serverAt url).fields.map Prod.fst).Nodup := List.nodup_singleton "url"
  have tabled := @get?_tabulate_set (Element.empty .server) _ (.value url) key known
  rw [if_neg other] at tabled
  rw [get?_dump distinct]
  exact tabled

/-- Servers are kept by one of an address alone if they hold no more. -/
theorem keptAmong_serverAt : KeptAmong [serverAt url] element ↔ HoldsOnly url element := by
  refine forall₂_congr fun server _ => ?_
  simp only [List.mem_singleton, exists_eq_left]
  have address : (serverAt url).value? "url" = some url := value?_set_self ..
  constructor
  · rintro ⟨alike, rest⟩
    rw [address] at alike
    exact ⟨alike, fun key other => (rest key other).symm.trans (get?_dump_serverAt other)⟩
  · rintro ⟨alike, rest⟩
    refine ⟨address ▸ alike, fun key other => ?_⟩
    rw [rest key other, get?_dump_serverAt other]

theorem many_put : (put url element).many "servers" = [serverAt url] := many_set_self ..

theorem holding_put : holding outer (put url element) = [serverAt url] := by
  unfold holding
  rw [many_put]

theorem holding_clear : holding outer (clear element) = outer := by
  unfold holding clear
  rw [many_set_self]

theorem holdsOnly_congr {own : Value} (alike : Alike [some own] [some url]) :
    HoldsOnly own element ↔ HoldsOnly url element :=
  forall₂_congr fun _ _ => and_congr_left fun _ =>
    ⟨fun first => .trans _ _ _ first alike, fun first => .trans _ _ _ first (.symm _ _ alike)⟩

/-- Operations that leave their servers to one of an address lose nothing if they hold no more. -/
theorem rel_clear_iff : (∀ verb ∈ Kind.verbs, Option.Rel (fun operation other =>
      KeptAmong (holding [serverAt url] other) operation) (item.one? verb)
        ((item.one? verb).map clear)) ↔
    ∀ operation ∈ operations item, HoldsOnly url operation := by
  constructor
  · intro each operation member
    obtain ⟨verb, among, found⟩ := mem_operations.mp member
    have slot := each verb among
    rw [found] at slot
    cases slot with
    | some kept =>
        rw [holding_clear] at kept
        exact keptAmong_serverAt.mp kept
  · intro each verb among
    cases found : item.one? verb with
    | none => exact .none
    | some operation =>
        refine .some ?_
        rw [holding_clear]
        exact keptAmong_serverAt.mpr (each operation (mem_operations.mpr ⟨verb, among, found⟩))

theorem sharesAddressOnly_of_isSettled (settled : IsSettled item) : SharesAddressOnly item :=
  fun url found shared => (settled url found shared).elim

/-- Only one address can be shared by the operations of a path. -/
theorem sharesAddressOnly_iff (found : urlsOf (operations item) = [url])
    (shared : ∀ operation ∈ operations item, hasSole url operation) :
    SharesAddressOnly item ↔
      HoldsOnly url item ∧ ∀ operation ∈ operations item, HoldsOnly url operation := by
  constructor
  · exact fun only => only url found shared
  · intro holds other same _
    obtain rfl := (List.cons.inj (found.symm.trans same)).1
    exact holds

/-- What a path and its operations hold is replaced by one address: nothing is lost exactly if they
hold no more. -/
theorem keepsPath_iff_of_clear (holds : holding outer moved = [serverAt url])
    (places : ∀ verb ∈ Kind.verbs, moved.one? verb = (item.one? verb).map clear) :
    KeepsPath outer item moved ↔
      HoldsOnly url item ∧ ∀ operation ∈ operations item, HoldsOnly url operation := by
  have slots : (∀ verb ∈ Kind.verbs, Option.Rel (fun operation other =>
        KeptAmong (holding [serverAt url] other) operation) (item.one? verb) (moved.one? verb)) ↔
      ∀ operation ∈ operations item, HoldsOnly url operation := by
    rw [← rel_clear_iff]
    exact forall₂_congr fun verb member => by rw [places verb member]
  rw [← slots, ← keptAmong_serverAt, ← holds]
  exact ⟨fun ⟨own, operations⟩ => ⟨own, operations⟩, fun ⟨own, operations⟩ => ⟨own, operations⟩⟩

/-- Moving the servers of operations up to their path loses nothing exactly if an address is all
that they and the path hold. -/
theorem keepsPath_hoistToPath_iff :
    KeepsPath outer item (hoistToPath item) ↔ SharesAddressOnly item := by
  rcases hoistToPath_cases item with settled | ⟨url, found, shared, moved⟩
  · rw [hoistToPath_of_isSettled settled]
    exact iff_of_true (keepsPath_self outer item) (sharesAddressOnly_of_isSettled settled)
  · rw [sharesAddressOnly_iff found shared, moved]
    refine keepsPath_iff_of_clear holding_put fun verb member => ?_
    rw [one?_put member, one?_mapOperations member]

/-- Moving the server of a path on to the document loses nothing exactly if an address is all that
is moved up to the path, or held by a path that keeps its place. -/
theorem keepsPath_clear_iff (sole : hasSole url (hoistToPath item)) :
    KeepsPath [serverAt url] item (clear (hoistToPath item)) ↔
      SharesAddressOnly item ∧ (IsSettled item → HoldsOnly url item) := by
  rcases hoistToPath_cases item with settled | ⟨own, found, shared, moved⟩
  · rw [hoistToPath_of_isSettled settled, and_iff_right (sharesAddressOnly_of_isSettled settled),
      forall_prop_of_true settled, ← keptAmong_serverAt]
    constructor
    · rintro ⟨own, -⟩
      rwa [holding_clear] at own
    · intro own
      refine ⟨by rwa [holding_clear], fun verb member => ?_⟩
      have slot := (keepsPath_self [serverAt url] (clear item)).operations verb member
      rwa [one?_clear member] at slot ⊢
  · obtain ⟨same_as, same, served⟩ := urls_of_hasSole sole
    rw [moved, urls_put, List.cons.injEq, Option.some.injEq] at served
    obtain ⟨rfl, -⟩ := served
    have alike : Alike [some own] [some url] := .symm _ _ (.rel _ _ ⟨url, own, same, rfl, rfl⟩)
    have unsettled : ¬IsSettled item := fun settled => settled own found shared
    rw [sharesAddressOnly_iff found shared, and_iff_left fun settled => (unsettled settled).elim,
      holdsOnly_congr alike, moved]
    simp only [holdsOnly_congr alike]
    refine keepsPath_iff_of_clear holding_clear fun verb member => ?_
    rw [one?_clear member, one?_put member, one?_mapOperations member]

/-- If paths do not share an address, servers are moved up to the paths alone. -/
theorem keepsServers_iff_of_apart
    (same : hoist document =
      document.set "paths" (.table (mapEntries hoistToPath (document.table "paths"))))
    (apart : ∀ url, urlsOfPaths (document.table "paths") = [url] → document.table "paths" ≠ [] →
      ¬ ∀ entry ∈ mapEntries hoistToPath (document.table "paths"), hasSole url entry.2) :
    KeepsServers document (hoist document) ↔ HoistsAddressesOnly document := by
  have servers : (hoist document).many "servers" = document.many "servers" := by
    rw [same, many_set_of_ne _ _ (by decide)]
  have paths : (hoist document).table "paths" =
      mapEntries hoistToPath (document.table "paths") := by
    rw [same, table_set_self]
  constructor
  · rintro ⟨-, kept⟩
    rw [paths, mapEntries, List.forall₂_map_right_iff, List.forall₂_same] at kept
    exact ⟨fun entry member => keepsPath_hoistToPath_iff.mp (kept entry member).2,
      fun url found some all => (apart url found some all).elim⟩
  · rintro ⟨only, -⟩
    refine ⟨servers ▸ keptAmong_self document, ?_⟩
    rw [paths, mapEntries, List.forall₂_map_right_iff, List.forall₂_same]
    exact fun entry member => ⟨rfl, keepsPath_hoistToPath_iff.mpr (only entry member)⟩

/-- If paths share an address, it takes the place of all servers of the document and of paths. -/
theorem keepsServers_iff_of_shared (found : urlsOfPaths (document.table "paths") = [url])
    (some : document.table "paths" ≠ [])
    (shared : ∀ entry ∈ mapEntries hoistToPath (document.table "paths"), hasSole url entry.2)
    (same : hoist document = put url (document.set "paths"
      (.table (mapEntries clear (mapEntries hoistToPath (document.table "paths")))))) :
    KeepsServers document (hoist document) ↔ HoistsAddressesOnly document := by
  have servers : (hoist document).many "servers" = [serverAt url] := by
    rw [same, many_put]
  have paths : (hoist document).table "paths" =
      mapEntries clear (mapEntries hoistToPath (document.table "paths")) := by
    rw [same, put, table_set_of_ne _ _ (by decide), table_set_self]
  have sole (entry : Scalar × Element) (member : entry ∈ document.table "paths") :
      hasSole url (hoistToPath entry.2) :=
    shared _ (List.mem_map_of_mem member)
  constructor
  · rintro ⟨own, kept⟩
    rw [servers] at own kept
    rw [paths, mapEntries, mapEntries, List.map_map, List.forall₂_map_right_iff,
      List.forall₂_same] at kept
    have each (entry : Scalar × Element) (member : entry ∈ document.table "paths") :=
      (keepsPath_clear_iff (sole entry member)).mp (kept entry member).2
    refine ⟨fun entry member => (each entry member).1, fun other again _ _ => ?_⟩
    obtain rfl := (List.cons.inj (found.symm.trans again)).1
    exact ⟨keptAmong_serverAt.mp own, fun entry member => (each entry member).2⟩
  · rintro ⟨only, own⟩
    obtain ⟨own, settled⟩ := own url found some shared
    refine ⟨servers ▸ keptAmong_serverAt.mpr own, ?_⟩
    rw [servers, paths, mapEntries, mapEntries, List.map_map, List.forall₂_map_right_iff,
      List.forall₂_same]
    intro entry member
    exact ⟨rfl, (keepsPath_clear_iff (sole entry member)).mpr
      ⟨only entry member, settled entry member⟩⟩

/-- Moving servers up keeps all that they say exactly if all that is moved up or replaced are
addresses: no server that loses its place, or that is put aside for the one that is moved up, has a
description, variables or an extension. -/
theorem keepsServers_iff (given : hoistChecked document = .ok hoisted) :
    KeepsServers document hoisted ↔ HoistsAddressesOnly document := by
  have moved : hoisted = hoist document := by
    unfold hoistChecked at given
    split at given
    · exact (Except.ok.inj given).symm
    · cases given
  subst moved
  rcases hoist_cases document with ⟨same, apart⟩ | ⟨url, found, some, shared, same⟩
  · exact keepsServers_iff_of_apart same apart
  · exact keepsServers_iff_of_shared found some shared same

/-- A path with two operations that have servers. -/
def pathServed (servers others : List Element) : Element :=
  let operation (servers : List Element) := (Element.empty .operation).set "servers" (.many servers)
  ((Element.empty .pathItem).set "get" (.one (operation servers))).set "post"
    (.one (operation others))

/-- The address of a library. -/
def libraryUrl : Value := .string "https://library.example.com"

/-- The address of its mirror. -/
def mirrorUrl : Value := .string "https://mirror.example.com"

/-- The server of the library with a description. -/
def describedServer : Element :=
  (serverAt libraryUrl).set "description" (.value (.string "Main"))

/-- A document with a path whose operations share a server of an address alone, and one where an
operation has a server with a description beside another one. -/
def describedMirrors : Element :=
  (Element.empty .document).set "paths" (.table [
    (.string "/v1/books", pathServed [serverAt libraryUrl] [serverAt libraryUrl]),
    (.string "/v1/shelves",
      pathServed [describedServer, serverAt mirrorUrl] [serverAt libraryUrl])])

theorem describedMirrors_keepsServers : ∃ hoisted,
    hoistChecked describedMirrors = .ok hoisted ∧ KeepsServers describedMirrors hoisted := by
  have given : hoistChecked describedMirrors = .ok (hoist describedMirrors) := rfl
  refine ⟨_, given, (keepsServers_iff given).mpr ⟨?_, ?_⟩⟩
  · intro entry member url found shared
    rcases List.mem_cons.mp member with rfl | member
    · obtain rfl : libraryUrl = url := (List.cons.inj found).1
      refine ⟨fun server none => (List.not_mem_nil none).elim, fun operation among => ?_⟩
      refine keptAmong_serverAt.mp ?_
      rcases List.mem_cons.mp among with rfl | among
      · exact keptAmong_self _
      · obtain rfl := List.mem_singleton.mp among
        exact keptAmong_self _
    · obtain rfl := List.mem_singleton.mp member
      obtain rfl : libraryUrl = url := (List.cons.inj found).1
      cases shared _ (.head _)
  · intro url found _ shared
    obtain rfl : libraryUrl = url := (List.cons.inj found).1
    cases shared _ (.tail _ (.head _))

/-- A document with servers of its own and a path whose operations have others. -/
def hosted (own shared : List Element) : Element :=
  ((Element.empty .document).set "servers" (.many own)).set "paths"
    (.table [(.string "/v1/books", pathServed shared shared)])

/-- A server that all operations share loses its description when it is moved up, and the servers
that a document had are lost to one that is moved up. -/
theorem hoisted_servers_lose :
    (∃ hoisted, hoistChecked (hosted [] [describedServer]) = .ok hoisted ∧
      (hoisted.many "servers").map dump = [[(.string "url", libraryUrl)]] ∧
      ¬KeepsServers (hosted [] [describedServer]) hoisted) ∧
    ∃ hoisted, hoistChecked (hosted [serverAt mirrorUrl] [serverAt libraryUrl]) = .ok hoisted ∧
      (hoisted.many "servers").map dump = [[(.string "url", libraryUrl)]] ∧
      ¬KeepsServers (hosted [serverAt mirrorUrl] [serverAt libraryUrl]) hoisted := by
  refine ⟨⟨_, rfl, rfl, fun kept => ?_⟩, ⟨_, rfl, rfl, fun kept => ?_⟩⟩
  · obtain ⟨-, path⟩ := (List.forall₂_cons.mp kept.paths).1
    have only := ((@keepsPath_clear_iff _ libraryUrl rfl).mp path).1 libraryUrl rfl fun
      | _, .head _ => rfl
      | _, .tail _ (.head _) => rfl
    obtain ⟨-, silent⟩ := only.2 _ (.head _) _ (.head _)
    cases silent (.string "description") (by decide)
  · obtain ⟨alike, -⟩ := keptAmong_serverAt.mp kept.own _ (.head _)
    have texts : ∀ url, some url ∈ [(serverAt mirrorUrl).value? "url"] → url.isText
      | _, .head _ => rfl
    have same := Value.scalar.inj (Option.some.inj (List.cons.inj (alike.eq_of_texts texts)).1)
    exact absurd same (by decide)

end Servers

end ServiceDoc
