-- Documents that are partial or rearranged. What a configuration is read as
-- depends neither on the blanks in its text nor on the order of members nor on
-- members that are no fields; and a field that is left out is the standard one.
import Mathlib.Logic.Relation
import SerialLink.Proofs.Document.Places
import SerialLink.Proofs.Json.Texts

namespace SerialLink

/-- The configuration that a text tells. -/
def MonitorConfig.ofText? (text : String) : Option MonitorConfig :=
  (Json.Value.parse? text).bind MonitorConfig.ofJson?

namespace Document

open Json (Value Text scan isSpace)

/-! ## Values that are read alike -/

/-- Nothing that a configuration is read with tells the values apart. -/
structure Alike (v v' : Value) : Prop where
  null : v.isNull = v'.isNull
  natural : v.natural? = v'.natural?
  text : v.text? = v'.text?
  markers : Stream.Layout.readMarkers Value.dialect v =
    Stream.Layout.readMarkers Value.dialect v'
  parts : ∀ p : Place, p.read? v = p.read? v'

namespace Alike

variable {v v' : Value}

theorem refl (v : Value) : Alike v v := ⟨rfl, rfl, rfl, rfl, fun _ => rfl⟩

theorem symm (h : Alike v v') : Alike v' v :=
  ⟨h.null.symm, h.natural.symm, h.text.symm, h.markers.symm, fun p => (h.parts p).symm⟩

theorem rel_refl (o : Option Value) : Option.Rel Alike o o := by
  cases o with
  | none => exact .none
  | some v => exact .some (refl v)

theorem word (h : Alike v v') : Value.dialect.word v = Value.dialect.word v' :=
  congrArg (Option.filter _) h.natural

theorem byte (h : Alike v v') : Value.dialect.byte v = Value.dialect.byte v' :=
  congrArg (fun n => (Option.filter _ n).map UInt8.ofNat) h.natural

theorem address (h : Alike v v') :
    Net.SocketAddress.read Value.dialect v = Net.SocketAddress.read Value.dialect v' :=
  congrArg (Option.bind · Net.SocketAddress.parse?) h.text

theorem optional {α : Type} {read : Value → Option α} (h : Alike v v') (hread : read v = read v') :
    Value.dialect.optional read v = Value.dialect.optional read v' := by
  have hnull : Value.dialect.isNull v = Value.dialect.isNull v' := h.null
  unfold Dialect.optional
  rw [hnull, hread]

end Alike

theorem orStandard_alike {α : Type} {standard : α} {read : Value → Option α} {o o' : Option Value}
    (h : Option.Rel Alike o o') (hread : ∀ {v v'}, Alike v v' → read v = read v') :
    orStandard standard read o = orStandard standard read o' := by
  cases h with
  | none => rfl
  | some h => exact hread h

theorem required_alike {α : Type} {read : Value → Option α} {o o' : Option Value}
    (h : Option.Rel Alike o o') (hread : ∀ {v v'}, Alike v v' → read v = read v') :
    o.bind read = o'.bind read := by
  cases h with
  | none => rfl
  | some h => exact hread h

namespace Place

variable {p : Place} {told told' : String → Option Value} {b : p.Part} {name : String}
  {x x' v v' : Value}

theorem Told.alike (h : ∀ name, Option.Rel Alike (told name) (told' name)) (hb : p.Told told b) :
    p.Told told' b := by
  have ho : ∀ {α : Type} {standard a : α} {read : Value → Option α} {name : String},
      orStandard standard read (told name) = some a →
      (∀ {v v'}, Alike v v' → read v = read v') → orStandard standard read (told' name) = some a :=
    fun ha hread => (orStandard_alike (h _) hread).symm.trans ha
  cases p with
  | top =>
    obtain ⟨hlevel, hdevice, haddress, hconnection, hhotplug⟩ := hb
    exact ⟨ho hlevel fun h => h.text, ho hdevice fun h => h.optional h.text,
      ho haddress fun h => h.optional h.address, ho hconnection fun h => h.parts .connection,
      ho hhotplug fun h => h.parts .hotplug⟩
  | connection =>
    obtain ⟨hring, hread, hdrain, hwrite, hdiagnostics⟩ := hb
    exact ⟨ho hring fun h => h.word, ho hread fun h => h.optional h.word,
      ho hdrain fun h => h.word, ho hwrite fun h => h.word,
      ho hdiagnostics fun h => h.parts .diagnostics⟩
  | diagnostics =>
    obtain ⟨l, rfl, hmarkers, hsequence, hsub⟩ := hb
    exact ⟨l, rfl, ho hmarkers fun h => h.markers, ho hsequence fun h => h.word,
      ho hsub fun h => h.word⟩
  | hotplug =>
    exact (required_alike (h "poll_interval_ms") fun h => h.word).symm.trans hb

/-- A record is read alike if one of its fields is exchanged for one that is read alike. -/
theorem read?_exchanged (hname : name ∈ p.names) (h : Value.Exchanged p.names name x x' v v')
    (hx : Alike x x') : p.read? v = p.read? v' := by
  have hnull : ∀ {x x' v v'}, Value.Exchanged p.names name x x' v v' → v.isNull = false := by
    rintro x x' v v' h
    cases h <;> rfl
  have hhalf : ∀ {x x' v v'} {b}, Value.Exchanged p.names name x x' v v' → Alike x x' →
      p.read? v = some b → p.read? v' = some b := by
    rintro x x' v v' b h hx hb
    obtain ⟨told, htold, hb⟩ := (read?_eq_some_iff (hnull h)).mp hb
    obtain ⟨hx₀, htold'⟩ := h.told? p.names_nodup hname htold
    refine (read?_eq_some_iff (hnull h.symm)).mpr ⟨_, htold', hb.alike fun n => ?_⟩
    by_cases hn : n = name
    · subst hn
      rw [hx₀, Function.update_self]
      exact .some hx
    · rw [Function.update_of_ne hn]
      exact Alike.rel_refl _
  exact Option.ext fun b => ⟨hhalf h hx, hhalf h.symm hx.symm⟩

end Place

/-! ## The order of members -/

/-- The members of one object, however deep, stand in another order. -/
inductive Shuffled : Value → Value → Prop
  | members {members members' : List (Text × Value)} :
    members.Perm members' → Shuffled (.object members) (.object members')
  | item {x x' : Value} (front back : List Value) :
    Shuffled x x' → Shuffled (.array (front ++ x :: back)) (.array (front ++ x' :: back))
  | member {x x' : Value} (name : Text) (front back : List (Text × Value)) :
    Shuffled x x' →
      Shuffled (.object (front ++ (name, x) :: back)) (.object (front ++ (name, x') :: back))

section Inner

variable {x x' : Value}

theorem markers_item (h : Alike x x') (front back : List Value) :
    Stream.Layout.readMarkers Value.dialect (.array (front ++ x :: back)) =
      Stream.Layout.readMarkers Value.dialect (.array (front ++ x' :: back)) := by
  -- Only a list of two tells markers.
  rcases front with _ | ⟨a, _ | ⟨a', front⟩⟩
  · rcases back with _ | ⟨b, _ | ⟨b', back⟩⟩
    · rfl
    · simp [Stream.Layout.readMarkers, Value.dialect_pair, h.byte]
    · rfl
  · rcases back with _ | ⟨b, back⟩
    · simp [Stream.Layout.readMarkers, Value.dialect_pair, h.byte]
    · rfl
  · cases front <;> rfl

theorem Alike.item (h : Alike x x') (front back : List Value) :
    Alike (.array (front ++ x :: back)) (.array (front ++ x' :: back)) := by
  refine ⟨rfl, rfl, rfl, markers_item h front back, fun p => ?_⟩
  cases hname : p.names[front.length]? with
  | some name =>
    exact Place.read?_exchanged (List.mem_of_getElem? hname) (.item front back hname) h
  | none =>
    -- There are more items than fields.
    have hnone : ∀ y, (Value.array (front ++ y :: back)).told? p.names p.cut = none := by
      rintro y
      have hlength := List.getElem?_eq_none_iff.mp hname
      refine Value.told?_of_not_isRecord fun hrecord => ?_
      simp only [Value.IsRecord, List.length_append, List.length_cons] at hrecord
      omega
    exact Place.read?_congr rfl rfl ((hnone x).trans (hnone x').symm)

theorem Alike.member (h : Alike x x') (name : Text) (front back : List (Text × Value)) :
    Alike (.object (front ++ (name, x) :: back)) (.object (front ++ (name, x') :: back)) := by
  refine ⟨rfl, rfl, rfl, rfl, fun p => ?_⟩
  cases name with
  | none =>
    have hnone : ∀ y, (Value.object (front ++ (none, y) :: back)).told? p.names p.cut = none :=
      fun y => Value.told?_of_not_isRecord fun hrecord =>
        hrecord.1 (none, y) (by simp) rfl
    exact Place.read?_congr rfl rfl ((hnone x).trans (hnone x').symm)
  | some name =>
    by_cases hname : name ∈ p.names
    · exact Place.read?_exchanged hname (.member front back) h
    · exact Place.read?_congr rfl rfl ((Value.told?_insert p.names_nodup hname).trans
        (Value.told?_insert p.names_nodup hname).symm)

end Inner

theorem Shuffled.alike {v v' : Value} (h : Shuffled v v') : Alike v v' := by
  induction h with
  | members hperm =>
    exact ⟨rfl, rfl, rfl, rfl, fun p =>
      Place.read?_congr rfl rfl (Value.told?_perm p.names_nodup hperm)⟩
  | item front back _ ih => exact ih.item front back
  | member name front back _ ih => exact ih.member name front back

/-! ## Edits -/

/-- An edit of a document that leaves its configuration as it is. -/
inductive Edit : Value → Value → Prop
  | shuffle {v v' : Value} : Shuffled v v' → Edit v v'
  /-- A member that is no field of its record is put in. -/
  | insert {v v' : Value} (p : Place) (front back : List (Text × Value)) (name : String)
    (x : Value) : name ∉ p.names →
      p.Exchanged (.object (front ++ back)) (.object (front ++ (some name, x) :: back)) v v' →
        Edit v v'
  /-- The fields that come first are told in order, without their names. -/
  | list {v v' : Value} (p : Place) (items : List Value) : p.cut = true →
      items.length ≤ p.names.length →
        p.Exchanged (.record (p.names.zip items)) (.array items) v v' → Edit v v'

theorem Edit.ofJson?_eq {v v' : Value} (h : Edit v v') :
    MonitorConfig.ofJson? v = MonitorConfig.ofJson? v' := by
  cases h with
  | shuffle h => exact h.alike.parts .top
  | insert p front back name x hname h =>
    exact h.ofJson?_eq (Place.read?_congr rfl rfl (Value.told?_insert p.names_nodup hname).symm)
  | list p items hcut hlength h =>
    refine h.ofJson?_eq (Place.read?_congr rfl rfl ?_)
    rw [hcut]
    exact (Value.told?_list p.names_nodup hlength).symm

theorem ofJson?_eq_of_edits {v v' : Value} (h : Relation.EqvGen Edit v v') :
    MonitorConfig.ofJson? v = MonitorConfig.ofJson? v' := by
  induction h with
  | rel _ _ h => exact h.ofJson?_eq
  | refl => rfl
  | symm _ _ _ ih => exact ih.symm
  | trans _ _ _ _ _ ih ih' => exact ih.trans ih'

/-! ## Texts -/

/-- The two parts of a text meet between two tokens. -/
def MeetBetween (front back : List Char) : Prop :=
  ∃ ts us, scan front = some ts ∧ scan back = some us ∧ scan (front ++ back) = some (ts ++ us)

theorem ofText?_eq {v : Value} {text : String} (h : v.IsText text) :
    MonitorConfig.ofText? text = MonitorConfig.ofJson? v := by
  rw [MonitorConfig.ofText?, Value.parse?_eq_some_iff.mpr h, Option.bind_some]

theorem isText_of_ofText? {text : String} {c : MonitorConfig}
    (h : MonitorConfig.ofText? text = some c) :
    ∃ v : Value, v.IsText text ∧ MonitorConfig.ofJson? v = some c := by
  obtain ⟨v, hparse, hv⟩ := Option.bind_eq_some_iff.mp h
  exact ⟨v, Value.parse?_eq_some_iff.mp hparse, hv⟩

/-- Blanks between tokens say nothing. -/
theorem ofText?_blanks {front blanks back : List Char} (h : MeetBetween front back)
    (hblanks : ∀ c ∈ blanks, isSpace c = true) :
    MonitorConfig.ofText? (String.ofList (front ++ (blanks ++ back))) =
      MonitorConfig.ofText? (String.ofList (front ++ back)) := by
  have hscan : scan (front ++ (blanks ++ back)) = scan (front ++ back) := by
    by_cases hany : blanks = []
    · rw [hany, List.nil_append]
    · obtain ⟨ts, us, hfront, hback, hboth⟩ := h
      rw [Json.scan_apart hfront hblanks hany, hback, hboth, Option.map_some]
  simp only [MonitorConfig.ofText?, Value.parse?, String.toList_ofList, hscan]

/-- What a configuration document may look like. Every accepted text is one of a document; blanks,
the order of members, members that are no fields and the array form make no difference; what is
left out is the standard value, but for the interval of a hotplug record that is there; and no
field may be told twice. -/
theorem a_configuration_document_may_be_partial_and_rearranged :
    (∀ text c, MonitorConfig.ofText? text = some c →
      ∃ v : Value, v.IsText text ∧ MonitorConfig.ofJson? v = some c) ∧
    (∀ front blanks back, MeetBetween front back → (∀ c ∈ blanks, isSpace c = true) →
      MonitorConfig.ofText? (String.ofList (front ++ (blanks ++ back))) =
        MonitorConfig.ofText? (String.ofList (front ++ back))) ∧
    (∀ (v v' : Value) text text', Relation.EqvGen Edit v v' → v.IsText text → v'.IsText text' →
      MonitorConfig.ofText? text' = MonitorConfig.ofText? text) ∧
    (∀ (p : Place) members members' (v v' : Value) text text' c, p.cut = true →
      members'.Sublist members → p.Exchanged (.object members) (.object members') v v' →
      v.IsText text → v'.IsText text' → MonitorConfig.ofText? text = some c →
      MonitorConfig.ofText? text' =
        some (p.withPart (p.reset (Value.leftOut members members') (p.part c)) c)) ∧
    (∀ members (v : Value) text, some "poll_interval_ms" ∉ members.map Prod.fst →
      Place.hotplug.Holds (.object members) v → v.IsText text →
      MonitorConfig.ofText? text = none) ∧
    (∀ (p : Place) members name (v : Value) text, name ∈ p.names →
      1 < (members.map Prod.fst).count (some name) → p.Holds (.object members) v →
      v.IsText text → MonitorConfig.ofText? text = none) := by
  refine ⟨fun _ _ => isText_of_ofText?, fun _ _ _ => ofText?_blanks, ?_, ?_, ?_, ?_⟩
  · intro v v' text text' h ht ht'
    rw [ofText?_eq ht, ofText?_eq ht', ofJson?_eq_of_edits h]
  · intro p members members' v v' text text' c hcut hsub h ht ht' hc
    rw [ofText?_eq ht] at hc
    obtain ⟨hx, hset⟩ := h.read hc
    rw [ofText?_eq ht', hset _ (Place.read?_sublist hcut hsub hx)]
  · intro members v text hnone h ht
    rw [ofText?_eq ht, h.ofJson?_eq_none (Place.read?_hotplug_eq_none hnone)]
  · intro p members name v text hname hcount h ht
    have hnone := Value.told?_repeated p.cut hname hcount
    rw [ofText?_eq ht, h.ofJson?_eq_none (Place.read?_eq_none rfl hnone)]

/-- A document with a blank in it, one with an array for an object, one that leaves out a field of
the connection, one that does not tell how often to look, and one that tells the device twice. -/
theorem a_connection_is_told_in_part :
    MonitorConfig.ofText? "\x7b\n\x7d" = MonitorConfig.ofText? "\x7b\x7d" ∧
    MonitorConfig.ofText? "\x7b\"connection\":[7]\x7d" =
      MonitorConfig.ofText? "\x7b\"connection\":\x7b\"ring_capacity\":7\x7d\x7d" ∧
    MonitorConfig.ofText? "\x7b\"connection\":\x7b\"ring_capacity\":7\x7d\x7d" =
      some { connection := { ringCapacity := 7 } } ∧
    MonitorConfig.ofText? "\x7b\"hotplug\":\x7b\x7d\x7d" = none ∧
    MonitorConfig.ofText? "\x7b\"device\":null,\"device\":null\x7d" = none := by
  obtain ⟨-, hblanks, hedits, hleft, hinterval, hrepeated⟩ :=
    a_configuration_document_may_be_partial_and_rearranged
  let ring : Text × Value := (some "ring_capacity", .natural 7)
  let drain : Text × Value := (some "drain_interval_ms", .natural 2)
  let document (x : Value) : Value := .object [(some "connection", x)]
  have hring : (document (.object [ring])).IsText
      "\x7b\"connection\":\x7b\"ring_capacity\":7\x7d\x7d" := rfl
  refine ⟨?_, ?_, ?_, ?_, ?_⟩
  · exact hblanks ['\x7b'] ['\n'] ['\x7d'] ⟨[.openBrace], [.closeBrace], rfl, rfl, rfl⟩
      (List.forall_mem_singleton.mpr rfl)
  · exact hedits _ (document (.array [.natural 7])) _ _
      (.rel _ _ (.list .connection [.natural 7] rfl (by decide) (.connection (.member [] []))))
      hring rfl
  · exact hleft .connection [drain, ring] [ring] (document (.object [drain, ring])) _
      "\x7b\"connection\":\x7b\"drain_interval_ms\":2,\"ring_capacity\":7\x7d\x7d" _
      { connection := { ringCapacity := 7, drainInterval := 2 } } rfl (.cons _ (.refl _))
      (.connection (.member [] [])) rfl hring rfl
  · exact hinterval [] (.object [(some "hotplug", .object [])]) _ (by decide)
      (.hotplug (.member [] [])) rfl
  · exact hrepeated .top [(some "device", .null), (some "device", .null)] "device" _ _ (by decide)
      (by decide) (.top _ _) rfl

end Document

end SerialLink
