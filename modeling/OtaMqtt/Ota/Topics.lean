import OtaMqtt.Lib.Delimited
import OtaMqtt.Ota.Manager

/-! The topics of the notification streams.

A topic joins the name and the version of a package with a slash that both may contain. -/

namespace OtaMqtt.Ota.Topics

open OtaMqtt.Lib.Delimited OtaMqtt.Lib.Execution OtaMqtt.Ota OtaMqtt.Ota.OTAManager

structure Package where
  deviceType : UInt16
  name : String
  version : String
  deriving DecidableEq, Repr

def Package.topic (package : Package) : String :=
  notifyTopic package.deviceType package.name package.version

/-- Two packages have one topic only when they are the same, and requests for the one leave the
other's notifier in the map as it is. -/
structure KeptApart (one other : Package) : Prop where
  topics : one.topic = other.topic ↔ one = other
  starts : one ≠ other → ∀ (manager : OTAManager) (msg : OTAMessage) connectId now,
    msg.name = one.name → msg.version = one.version →
    (manager.otaNotify one.deviceType msg connectId now).2.otaNotifierMap.lookup other.topic =
      manager.otaNotifierMap.lookup other.topic
  stops : one ≠ other → ∀ (manager : OTAManager) connectId response next,
    manager.otaStopNotify one.deviceType one.name one.version connectId = .ok (response, next) →
    next.otaNotifierMap.lookup other.topic = manager.otaNotifierMap.lookup other.topic

def Entangled (one other : Package) : Prop :=
  one.deviceType = other.deviceType ∧ ∃ middle, one.name = other.name ++ "/" ++ middle ∧
    other.version = middle ++ "/" ++ one.version

theorem topic_chars (package : Package) : package.topic.toList = "/ota/".toList ++
    (Nat.toDigits 10 package.deviceType.toNat ++ '/' ::
      (package.name.toList ++ '/' :: package.version.toList ++ "/notify".toList)) := by
  simp [Package.topic, notifyTopic, Nat.toList_repr]

theorem topic_iff (one other : Package) : one.topic = other.topic ↔
    one.deviceType = other.deviceType ∧ one.name.toList ++ '/' :: one.version.toList =
      other.name.toList ++ '/' :: other.version.toList := by
  rw [← String.toList_inj, topic_chars, topic_chars]
  constructor
  · intro same
    obtain ⟨types, rests⟩ := split_first (not_digit _ (by decide)) (not_digit _ (by decide))
      (List.append_cancel_left same)
    exact ⟨UInt16.toNat_inj.mp (digits_injective types), List.append_cancel_right rests⟩
  · rintro ⟨types, joined⟩
    rw [types, joined]

theorem package_eq {one other : Package} (types : one.deviceType = other.deviceType)
    (names : one.name = other.name) (versions : one.version = other.version) : one = other := by
  cases one
  cases other
  cases types
  cases names
  cases versions
  rfl

theorem joined_packages_iff {text : String} {delimiter : Char} (single : text.toList = [delimiter])
    (front back : Package → String)
    (whole : ∀ one other : Package, one.deviceType = other.deviceType → front one = front other →
      back one = back other → one = other) (one other : Package) :
    (one.deviceType = other.deviceType ∧ (front one).toList ++ delimiter :: (back one).toList =
        (front other).toList ++ delimiter :: (back other).toList) ↔
      one = other ∨
      (one.deviceType = other.deviceType ∧ ∃ middle, front one = front other ++ text ++ middle ∧
        back other = middle ++ text ++ back one) ∨
      (other.deviceType = one.deviceType ∧ ∃ middle, front other = front one ++ text ++ middle ∧
        back one = middle ++ text ++ back other) := by
  rw [joined_texts_iff single]
  constructor
  · rintro ⟨types, ⟨fronts, backs⟩ | forward | backward⟩
    · exact .inl (whole one other types fronts backs)
    · exact .inr (.inl ⟨types, forward⟩)
    · exact .inr (.inr ⟨types.symm, backward⟩)
  · rintro (rfl | ⟨types, forward⟩ | ⟨types, backward⟩)
    · exact ⟨rfl, .inl ⟨rfl, rfl⟩⟩
    · exact ⟨types, .inr (.inl forward)⟩
    · exact ⟨types.symm, .inr (.inr backward)⟩

theorem shared_iff (one other : Package) : one.topic = other.topic ↔
    one = other ∨ Entangled one other ∨ Entangled other one := by
  have single : "/".toList = ['/'] := rfl
  rw [topic_iff]
  exact joined_packages_iff single Package.name Package.version (fun _ _ => package_eq) one other

theorem entangled_ne {one other : Package} (entangled : Entangled one other) : one ≠ other := by
  rintro rfl
  have single : "/".toList = ['/'] := rfl
  obtain ⟨-, middle, names, -⟩ := entangled
  exact longer_text single _ middle names

theorem otaNotify_frame (manager : OTAManager) (deviceType : UInt16) (msg : OTAMessage)
    (connectId : Int) (now : UInt64) {topic : String}
    (apart : topic ≠ notifyTopic deviceType msg.name msg.version) :
    (manager.otaNotify deviceType msg connectId now).2.otaNotifierMap.lookup topic =
      manager.otaNotifierMap.lookup topic := by
  unfold otaNotify
  split
  · rfl
  · split_ifs
    · rfl
    · exact AList.lookup_insert_ne apart

theorem otaStopNotify_frame (manager : OTAManager) (deviceType : UInt16) (name version : String)
    (connectId : Int) {topic : String} (apart : topic ≠ notifyTopic deviceType name version)
    {response : Response} {next : OTAManager}
    (stopped : manager.otaStopNotify deviceType name version connectId = .ok (response, next)) :
    next.otaNotifierMap.lookup topic = manager.otaNotifierMap.lookup topic := by
  unfold otaStopNotify at stopped
  dsimp only at stopped
  split at stopped
  · rw [← (Prod.mk.inj (Except.ok.inj stopped)).2]
  · obtain ⟨halted, -, done⟩ := (bind_eq_ok ..).mp stopped
    rw [← (Prod.mk.inj (Except.ok.inj done)).2]
    exact AList.lookup_insert_ne apart

/-- The streams of two packages are kept apart exactly when neither's name takes over a part of
the other's version. -/
theorem keptApart_iff (one other : Package) :
    KeptApart one other ↔ ¬ Entangled one other ∧ ¬ Entangled other one := by
  constructor
  · intro kept
    constructor
    · intro entangled
      exact entangled_ne entangled (kept.topics.mp ((shared_iff ..).mpr (.inr (.inl entangled))))
    · intro entangled
      exact entangled_ne entangled
        (kept.topics.mp ((shared_iff ..).mpr (.inr (.inr entangled)))).symm
  · rintro ⟨forward, backward⟩
    have topics : one.topic = other.topic ↔ one = other := by
      rw [shared_iff]
      simp only [forward, backward, or_false]
    refine ⟨topics, fun distinct manager msg connectId now names versions => ?_,
      fun distinct manager connectId response next stopped => ?_⟩
    · apply otaNotify_frame
      rw [names, versions]
      exact fun same => distinct (topics.mp same.symm)
    · exact otaStopNotify_frame manager _ _ _ connectId (fun same => distinct (topics.mp same.symm))
        stopped

/-- A slash in a name and one in a version lead to one topic. -/
theorem slash_shared : ¬ ∀ one other : Package, KeptApart one other := by
  intro every
  have shared : (Package.mk 1 "a/b" "c").topic = (Package.mk 1 "a" "b/c").topic := by decide
  exact absurd ((every ⟨1, "a/b", "c"⟩ ⟨1, "a", "b/c"⟩).topics.mp shared) (by decide)

end OtaMqtt.Ota.Topics
