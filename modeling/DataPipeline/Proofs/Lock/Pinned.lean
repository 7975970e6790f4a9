import DataPipeline.Lock.Basic
import DataPipeline.Plugin.Builtin
import DataPipeline.Proofs.Json.Compact

namespace DataPipeline

section Bytes

theorem toList_loop (bytes : ByteArray) (i : Nat) (before : List UInt8) :
    ByteArray.toList.loop bytes i before = before.reverse ++ bytes.data.toList.drop i := by
  induction i, before using ByteArray.toList.loop.induct bytes with
  | case1 i before h ih =>
    have hi : i < bytes.data.toList.length := h
    rw [ByteArray.toList.loop, if_pos h, ih, List.drop_eq_getElem_cons hi]
    simp [ByteArray.get!, h]
  | case2 i before h =>
    rw [ByteArray.toList.loop, if_neg h, List.drop_eq_nil_of_le (Nat.not_lt.1 h),
      List.append_nil]

theorem toUTF8_toList_inj {s s' : String} (h : s.toUTF8.toList = s'.toUTF8.toList) :
    s = s' := by
  rw [ByteArray.toList, ByteArray.toList, toList_loop, toList_loop] at h
  exact String.toByteArray_inj.1 (ByteArray.ext (Array.toList_inj.1 h))

end Bytes

namespace Sha256

theorem hexChar_inj : ∀ n < 16, ∀ n' < 16, hexChar n = hexChar n' → n = n' := by decide

theorem hexDigits_inj {bytes bytes' : List UInt8}
    (h : (bytes.flatMap fun b => [hexChar (b.toNat / 16), hexChar (b.toNat % 16)]) =
      bytes'.flatMap fun b => [hexChar (b.toNat / 16), hexChar (b.toNat % 16)]) :
      bytes = bytes' := by
  induction bytes generalizing bytes' with
  | nil =>
    cases bytes' with
    | nil => rfl
    | cons b' bytes' => cases h
  | cons b bytes ih =>
    cases bytes' with
    | nil => cases h
    | cons b' bytes' =>
      simp only [List.flatMap_cons, List.cons_append, List.nil_append, List.cons.injEq] at h
      obtain ⟨hhigh, hlow, hrest⟩ := h
      have hb := b.toNat_lt
      have hb' := b'.toNat_lt
      have hhigh := hexChar_inj _ (by omega) _ (by omega) hhigh
      have hlow := hexChar_inj _ (by omega) _ (by omega) hlow
      have hbyte : b = b' := UInt8.toNat_inj.1 (by omega)
      rw [hbyte, ih hrest]

theorem digest_eq_of_hex {message message' : List UInt8} (h : hex message = hex message') :
    digest message = digest message' :=
  hexDigits_inj (String.ofList_inj.1 h)

end Sha256

namespace Lock

theorem kind_eq_of_append {kind kind' : PluginKind} {name name' : String}
    (h : kind.name.toList ++ name.toList = kind'.name.toList ++ name'.toList) :
    kind = kind' ∧ name = name' := by
  have hkind : kind = kind' := by
    -- The names of the kinds begin with different letters.
    cases kind <;> cases kind' <;> first | rfl | cases (List.cons.inj h).1
  subst hkind
  exact ⟨rfl, String.toList_inj.1 (List.append_cancel_left h)⟩

theorem toList_pinned (kind : PluginKind) (name : String) (config : Fields) :
    (pinned kind name config).toList =
      (kind.name.toList ++ name.toList) ++ (Json.object config).chars := by
  rw [pinned, Json.compact, String.toList_append, String.toList_append, String.toList_ofList]

theorem eq_of_pinned {kind kind' : PluginKind} {name name' : String} {config config' : Fields}
    (hconfig : (Json.object config).proper = true)
    (hconfig' : (Json.object config').proper = true)
    (h : (pinned kind name config).toUTF8.toList = (pinned kind' name' config').toUTF8.toList) :
    kind = kind' ∧ name = name' ∧ config = config' := by
  have htext := congrArg String.toList (toUTF8_toList_inj h)
  rw [toList_pinned, toList_pinned] at htext
  obtain ⟨hfront, rfl⟩ := Json.eq_of_append_chars hconfig hconfig' htext
  obtain ⟨rfl, rfl⟩ := kind_eq_of_append hfront
  exact ⟨rfl, rfl, rfl⟩

/-- A plugin reference has been pinned, and these are its merged settings. -/
structure Pins (registry : Registry) (kind : PluginKind) (ref : PluginRef) (config : Fields)
    (lock : PluginLock) :
    Prop where
  plugin : plugin registry kind ref = .ok lock
  merged : registry.mergedConfig kind ref = .ok config
  proper : (Json.object config).proper = true

theorem Pins.lock_eq {registry : Registry} {kind : PluginKind} {ref : PluginRef}
    {config : Fields} {lock : PluginLock} (h : Pins registry kind ref config lock) :
    lock = ⟨kind, ref.name, Sha256.hex (pinned kind ref.name config).toUTF8.toList⟩ := by
  have hplugin := h.plugin
  rw [Lock.plugin, h.merged] at hplugin
  cases hplugin
  rfl

/-- The bytes that are digested for a plugin tell its kind, its name and its merged settings; so
do equal digests, unless they are those of two different sequences of bytes. -/
theorem pinned_unambiguous :
    (∀ (kind kind' : PluginKind) (name name' : String) (config config' : Fields),
      (Json.object config).proper = true → (Json.object config').proper = true →
      (pinned kind name config).toUTF8.toList = (pinned kind' name' config').toUTF8.toList →
      kind = kind' ∧ name = name' ∧ config = config') ∧
    ∀ (registry registry' : Registry) (kind kind' : PluginKind) (ref ref' : PluginRef)
      (config config' : Fields)
      (lock lock' : PluginLock),
      Pins registry kind ref config lock → Pins registry' kind' ref' config' lock' →
      lock.digest = lock'.digest →
      (lock.kind = lock'.kind ∧ lock.name = lock'.name ∧ config = config') ∨
      ((pinned kind ref.name config).toUTF8.toList ≠
        (pinned kind' ref'.name config').toUTF8.toList ∧
        Sha256.digest (pinned kind ref.name config).toUTF8.toList =
          Sha256.digest (pinned kind' ref'.name config').toUTF8.toList) := by
  constructor
  · intro kind kind' name name' config config' hconfig hconfig' h
    exact eq_of_pinned hconfig hconfig' h
  · intro registry registry' kind kind' ref ref' config config' lock lock' h h' hdigest
    rw [h.lock_eq, h'.lock_eq] at hdigest ⊢
    by_cases hbytes : (pinned kind ref.name config).toUTF8.toList =
      (pinned kind' ref'.name config').toUTF8.toList
    · exact .inl (eq_of_pinned h.proper h'.proper hbytes)
    · exact .inr ⟨hbytes, Sha256.digest_eq_of_hex hdigest⟩

/-- A name that ends like settings, and a plugin whose defaults are spelled out in one of two
references. -/
theorem pinned_unambiguous_bracedName : ∃ config lock lock',
    Pins Registry.builtin .generator ⟨"static", none⟩ config lock ∧
    Pins Registry.builtin .generator ⟨"static", some [("repeat", .nat 1)]⟩ config lock' ∧
    lock.digest = lock'.digest ∧
    ((lock.kind = lock'.kind ∧ lock.name = lock'.name ∧ config = config) ∨
      ((pinned .generator "static" config).toUTF8.toList ≠
        (pinned .generator "static" config).toUTF8.toList ∧
        Sha256.digest (pinned .generator "static" config).toUTF8.toList =
          Sha256.digest (pinned .generator "static" config).toUTF8.toList)) ∧
    (pinned .generator "static\x7b\x7d" config).toUTF8.toList =
      (pinned .generator ("static" ++ "\x7b\x7d") config).toUTF8.toList ∧
    (PluginKind.generator = .generator ∧ "static\x7b\x7d" = "static" ++ "\x7b\x7d" ∧
      config = config) := by
  have hproper :
      (Json.object [("records", .array []), ("repeat", .nat 1)]).proper = true := by decide
  have hdefault : Pins Registry.builtin .generator ⟨"static", none⟩ _ _ := ⟨rfl, rfl, hproper⟩
  have hspelled : Pins Registry.builtin .generator ⟨"static", some [("repeat", .nat 1)]⟩ _ _ :=
    ⟨rfl, rfl, hproper⟩
  have hname : (pinned .generator "static\x7b\x7d" [("records", .array []),
    ("repeat", .nat 1)]).toUTF8.toList =
    (pinned .generator ("static" ++ "\x7b\x7d") [("records", .array []),
      ("repeat", .nat 1)]).toUTF8.toList := rfl
  refine ⟨_, _, _, hdefault, hspelled, rfl, ?_, hname, ?_⟩
  · exact pinned_unambiguous.2 _ _ _ _ _ _ _ _ _ _ hdefault hspelled rfl
  · exact pinned_unambiguous.1 _ _ _ _ _ _ hproper hproper hname

end Lock

end DataPipeline
