import Pulse.Json.Decode
import Pulse.Proofs.Json.Strings

/-!
# Objects that are read as they were written

What a value is read as does not depend on what follows it, as long as that cannot be a part of a
number: `ReadAs value node`.  If the values of an object are read as certain nodes, the object is
read as a tree with these nodes (`readDocument_written`).
-/

set_option autoImplicit false

namespace Pulse.Json

/-- Bytes that do not continue a number before them. -/
def EndsNumber (rest : List UInt8) : Prop :=
  ∀ b ∈ rest.head?, isDigitByte b = false ∧ b ≠ 0x2E ∧ b ≠ 0x65 ∧ b ≠ 0x45

/-- The written value is read as the node. -/
def ReadAs (value : Value) (node : Node) : Prop :=
  ∀ (fuel depth : Nat) (rest : List UInt8), EndsNumber rest →
    readValue (fuel + 1) depth (bytesOf value.write ++ rest) = (node, .ok rest)

theorem readAs_text (s : String) : ReadAs (.text s) (.scalar (.ok (.text s))) := by
  intro fuel depth rest _
  have hspace (bytes : List UInt8) : skipSpace (0x22 :: bytes) = 0x22 :: bytes := rfl
  rw [Value.write, bytesOf_writeString, readValue, hspace]
  simp only [readString_written]
  rfl

/-! ## Members -/

/-- A member as it is written. -/
def writeMember (m : String × Value) : List Char :=
  writeString m.1 ++ ':' :: m.2.write

theorem writeMembers_cons (m : String × Value) (ms : List (String × Value)) :
    writeMembers (m :: ms) = writeMember m ++ ms.flatMap fun m => ',' :: writeMember m := by
  induction ms generalizing m with
  | nil => simp [writeMembers, writeMember]
  | cons m' ms ih => simp [writeMembers, ih m', writeMember]

/-- The member as which a written member is read. -/
def memberOf (m : String × Node) : Member :=
  .mk (.ok m.1) m.2 none

/-- The member has the same name and the node as which its value is read. -/
structure MemberReadAs (m : String × Value) (m' : String × Node) : Prop where
  name : m.1 = m'.1
  value : ReadAs m.2 m'.2

/-- A member and what follows it. -/
theorem readMember_written {m : String × Value} {m' : String × Node} (h : MemberReadAs m m')
    (fuel depth : Nat) {rest : List UInt8} (hrest : EndsNumber rest) :
    ∃ body, bytesOf (writeMember m) = 0x22 :: body ∧
      readMember (fuel + 2) depth (body ++ rest) =
        (memberOf m' :: (readMembers (fuel + 1) depth false rest).1,
          (readMembers (fuel + 1) depth false rest).2) := by
  refine ⟨bytesOf (m.1.toList.flatMap writeChar) ++ 0x22 :: 0x3A :: bytesOf m.2.write, ?_, ?_⟩
  · rw [writeMember, bytesOf_append, bytesOf_writeString]
    rfl
  · have hspace (bytes : List UInt8) : skipSpace (0x3A :: bytes) = 0x3A :: bytes := rfl
    rw [List.append_assoc, List.cons_append, List.cons_append, readMember, readString_written]
    simp only [hspace, h.value fuel depth rest hrest, h.name]
    rfl

theorem endsNumber_comma (rest : List UInt8) : EndsNumber (0x2C :: rest) := by
  intro b hb
  obtain rfl := Option.some_inj.1 hb
  decide

theorem endsNumber_brace (rest : List UInt8) : EndsNumber (0x7D :: rest) := by
  intro b hb
  obtain rfl := Option.some_inj.1 hb
  decide

/-- The members behind the first, up to the brace. -/
theorem readMembers_written {ms : List (String × Value)} {ms' : List (String × Node)}
    (h : List.Forall₂ MemberReadAs ms ms') (depth : Nat) (rest : List UInt8) {fuel : Nat}
    (hfuel : 3 * ms.length < fuel) :
    readMembers fuel depth false
        (bytesOf (ms.flatMap fun m => ',' :: writeMember m) ++ 0x7D :: rest) =
      (ms'.map memberOf, .closed, .ok rest) := by
  induction h generalizing fuel with
  | nil =>
    obtain ⟨fuel, rfl⟩ : ∃ f, fuel = f + 1 := ⟨fuel - 1, by simp at hfuel; omega⟩
    rw [readMembers]
    rfl
  | @cons m m' ms ms' hm hms ih =>
    obtain ⟨fuel, rfl⟩ : ∃ f, fuel = f + 3 := ⟨fuel - 3, by simp at hfuel; omega⟩
    have hspace (bytes : List UInt8) : skipSpace (0x2C :: bytes) = 0x2C :: bytes := rfl
    have hspace' (bytes : List UInt8) : skipSpace (0x22 :: bytes) = 0x22 :: bytes := rfl
    have hends :
        EndsNumber (bytesOf (ms.flatMap fun m => ',' :: writeMember m) ++ 0x7D :: rest) := by
      cases ms with
      | nil => exact endsNumber_brace rest
      | cons m ms => exact endsNumber_comma _
    obtain ⟨body, hbody, hread⟩ := readMember_written hm fuel depth hends
    have hstart : bytesOf ((m :: ms).flatMap fun m => ',' :: writeMember m) ++ 0x7D :: rest =
        0x2C :: 0x22 :: (body ++ (bytesOf (ms.flatMap fun m => ',' :: writeMember m) ++
          0x7D :: rest)) := by
      rw [List.flatMap_cons, bytesOf_append, bytesOf_cons, hbody, List.append_assoc]
      rfl
    rw [hstart, readMembers, hspace]
    simp only [hspace', Bool.false_eq_true, if_false, hread]
    rw [ih (by simp at hfuel; omega)]
    rfl

/-- There is enough to spend for the members of an object. -/
theorem length_lt_written (m : String × Value) (ms : List (String × Value)) :
    ms.length + 1 < (bytesOf (Value.object (m :: ms)).write).length := by
  have htail : ms.length ≤ (bytesOf (ms.flatMap fun m => ',' :: writeMember m)).length := by
    induction ms with
    | nil => simp
    | cons m ms ih =>
      rw [List.flatMap_cons, bytesOf_append, bytesOf_cons]
      show ms.length + 1 ≤ ([0x2C] ++ _ ++ _ : List UInt8).length
      simp only [List.length_append, List.length_singleton]
      omega
  rw [Value.write, writeMembers_cons, bytesOf_append, bytesOf_cons, bytesOf_append]
  show _ < ([0x7B] ++ (_ ++ _) ++ [0x7D] : List UInt8).length
  simp only [List.length_append, List.length_singleton]
  omega

/-- **An object is read as it was written**, if its values are. -/
theorem readDocument_written {ms : List (String × Value)} {ms' : List (String × Node)}
    (h : List.Forall₂ MemberReadAs ms ms') (hms : ms ≠ []) :
    readDocument (bytesOf (Value.object ms).write) =
      (.object 0 (ms'.map memberOf) .closed, .ok []) := by
  cases h with
  | nil => exact absurd rfl hms
  | @cons m m' ms ms' hm htail =>
    have hlength := length_lt_written m ms
    rw [readDocument]
    generalize (bytesOf (Value.object (m :: ms)).write).length = n at hlength
    obtain ⟨n, rfl⟩ : ∃ k, n = k + 1 := ⟨n - 1, by omega⟩
    have hspace (bytes : List UInt8) : skipSpace (0x7B :: bytes) = 0x7B :: bytes := rfl
    have hspace' (bytes : List UInt8) : skipSpace (0x22 :: bytes) = 0x22 :: bytes := rfl
    have hends : EndsNumber (bytesOf (ms.flatMap fun m => ',' :: writeMember m) ++ [0x7D]) := by
      cases ms with
      | nil => exact endsNumber_brace []
      | cons m ms => exact endsNumber_comma _
    obtain ⟨body, hbody, hread⟩ := readMember_written hm (3 * n + 2) 1 hends
    have hstart : bytesOf (Value.object (m :: ms)).write =
        0x7B :: 0x22 ::
          (body ++ (bytesOf (ms.flatMap fun m => ',' :: writeMember m) ++ [0x7D])) := by
      rw [Value.write, writeMembers_cons, bytesOf_append, bytesOf_cons, bytesOf_append, hbody,
        List.append_assoc, List.append_assoc]
      rfl
    have hfuel : 3 * (n + 1) + 3 = 3 * n + 2 + 2 + 1 + 1 := by omega
    rw [hstart, hfuel, readValue, hspace]
    simp only
    rw [readMembers, hspace']
    simp only [if_true, hread]
    rw [readMembers_written htail 1 [] (by omega)]
    rfl

/-! ## Members that a structure knows -/

/-- The structure knows the member, and its value is readable. -/
def Known (fields : List Field) (m : String × Node) : Prop :=
  ∃ f, fields.find? (fun f => f.name == m.1) = some f ∧ f.check m.2 = .ok ()

/-- Known members with different names are all met. -/
theorem knownMembers_eq {fields : List Field} {ms : List (String × Node)}
    (known : List (String × Node)) (hknown : ∀ m ∈ ms, Known fields m)
    (hnames : ((known ++ ms).map (·.1)).Nodup) :
    knownMembers fields known (ms.map memberOf) = .ok (known ++ ms) := by
  induction ms generalizing known with
  | nil => simp [knownMembers]
  | cons m ms ih =>
    obtain ⟨f, hfind, hcheck⟩ := hknown m List.mem_cons_self
    have hfresh : (known.any fun k => k.1 == m.1) = false := by
      rw [List.any_eq_false]
      intro k hk heq
      rw [List.map_append, List.nodup_append] at hnames
      exact hnames.2.2 _ (List.mem_map_of_mem hk) _ (List.mem_map_of_mem List.mem_cons_self)
        (eq_of_beq heq)
    have hrest := ih (known ++ [m]) (fun m hm => hknown m (List.mem_cons_of_mem _ hm))
      (by rwa [List.append_assoc])
    rw [List.append_assoc] at hrest
    rw [List.map_cons, memberOf, knownMembers]
    simp only [bind, Except.bind, hfind, hfresh, hcheck, Bool.false_eq_true, if_false,
      Except.mapError]
    exact hrest

/-- A structure is decoded from its members. -/
theorem decoderAs_members {α : Type} {record : Record α} {ms : List (String × Node)}
    (hknown : ∀ m ∈ ms, Known record.fields m) (hnames : (ms.map (·.1)).Nodup)
    (title expected : String) (depth : Nat) :
    record.decoderAs title expected (.object depth (ms.map memberOf) .closed) =
      record.build (fun name => (Mismatch.missing name).fault) (lookup ms) := by
  rw [Record.decoderAs, knownMembers_eq [] hknown hnames]
  rfl

/-- A document is decoded if its tree is and nothing is left over. -/
theorem decodeAll_eq {α : Type} {decode : Decoder α} {bytes : List UInt8} {node : Node} {a : α}
    (hread : readDocument bytes = (node, .ok [])) (h : decode node = .ok a) :
    decodeAll decode bytes = .ok a := by
  simp only [decodeAll, hread, h]
  rfl

end Pulse.Json
