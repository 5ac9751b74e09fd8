import RightsPolicy.Vocabulary.Basic

namespace RightsPolicy

inductive OdrlKind where
  | agreement
  | offer
  | set
  deriving DecidableEq, Repr

def OdrlKind.term : OdrlKind → String
  | .agreement => "Agreement"
  | .offer => "Offer"
  | .set => "Set"

instance : Vocabulary OdrlKind where
  label := "policy kind"
  values :=
    [.agreement, .offer, .set]
  term := OdrlKind.term
  complete a := by cases a <;> decide
  distinct := by decide
  written := by decide

instance : Inhabited OdrlKind where
  default := .agreement

namespace OdrlKind

def requiresAssigner : OdrlKind → Bool
  | .agreement => true
  | .offer => true
  | .set => false

def requiresAssignee : OdrlKind → Bool
  | .agreement => true
  | .offer => false
  | .set => false

end OdrlKind

inductive Partition where
  | permission
  | prohibition
  | obligation
  deriving DecidableEq, Repr

def Partition.term : Partition → String
  | .permission => "permission"
  | .prohibition => "prohibition"
  | .obligation => "obligation"

instance : Vocabulary Partition where
  label := "rule partition"
  values :=
    [.permission, .prohibition, .obligation]
  term := Partition.term
  complete a := by cases a <;> decide
  distinct := by decide
  written := by decide

inductive Action where
  | use
  | modify
  | distribute
  | reproduce
  | display
  | execute
  | print
  | play
  | present
  | read
  | sell
  | give
  | lend
  | move
  | duplicate
  | delete
  | install
  | uninstall
  | extract
  | derive
  | index
  | annotate
  | aggregate
  | anonymize
  | archive
  | attributeUse
  | compensate
  | concurrent
  | ensure
  | includeAsset
  | inform
  | nextPolicy
  | obtainConsent
  | reviewPolicy
  | textToSpeech
  | translate
  | watermark
  deriving DecidableEq, Repr

def Action.term : Action → String
  | .use => "use"
  | .modify => "modify"
  | .distribute => "distribute"
  | .reproduce => "reproduce"
  | .display => "display"
  | .execute => "execute"
  | .print => "print"
  | .play => "play"
  | .present => "present"
  | .read => "read"
  | .sell => "sell"
  | .give => "give"
  | .lend => "lend"
  | .move => "move"
  | .duplicate => "duplicate"
  | .delete => "delete"
  | .install => "install"
  | .uninstall => "uninstall"
  | .extract => "extract"
  | .derive => "derive"
  | .index => "index"
  | .annotate => "annotate"
  | .aggregate => "aggregate"
  | .anonymize => "anonymize"
  | .archive => "archive"
  | .attributeUse => "attribute"
  | .compensate => "compensate"
  | .concurrent => "concurrent"
  | .ensure => "ensure"
  | .includeAsset => "include"
  | .inform => "inform"
  | .nextPolicy => "nextPolicy"
  | .obtainConsent => "obtainConsent"
  | .reviewPolicy => "reviewPolicy"
  | .textToSpeech => "textToSpeech"
  | .translate => "translate"
  | .watermark => "watermark"

instance : Vocabulary Action where
  label := "action"
  values :=
    [.use, .modify, .distribute, .reproduce, .display, .execute, .print, .play, .present, .read,
      .sell, .give, .lend, .move, .duplicate, .delete, .install, .uninstall, .extract, .derive,
      .index, .annotate, .aggregate, .anonymize, .archive, .attributeUse, .compensate,
      .concurrent, .ensure, .includeAsset, .inform, .nextPolicy, .obtainConsent, .reviewPolicy,
      .textToSpeech, .translate, .watermark]
  term := Action.term
  complete a := by cases a <;> decide
  distinct := by decide
  written := by decide

inductive ConstraintOperator where
  | eq
  | neq
  | lt
  | lteq
  | gt
  | gteq
  | isA
  | hasPart
  | isPartOf
  | isAllOf
  | isAnyOf
  | isNoneOf
  deriving DecidableEq, Repr

def ConstraintOperator.term : ConstraintOperator → String
  | .eq => "eq"
  | .neq => "neq"
  | .lt => "lt"
  | .lteq => "lteq"
  | .gt => "gt"
  | .gteq => "gteq"
  | .isA => "isA"
  | .hasPart => "hasPart"
  | .isPartOf => "isPartOf"
  | .isAllOf => "isAllOf"
  | .isAnyOf => "isAnyOf"
  | .isNoneOf => "isNoneOf"

instance : Vocabulary ConstraintOperator where
  label := "constraint operator"
  values :=
    [.eq, .neq, .lt, .lteq, .gt, .gteq, .isA, .hasPart, .isPartOf, .isAllOf, .isAnyOf, .isNoneOf]
  term := ConstraintOperator.term
  complete a := by cases a <;> decide
  distinct := by decide
  written := by decide

inductive LeftOperand where
  | dateTime
  | delayPeriod
  | deliveryChannel
  | elapsedTime
  | event
  | industry
  | language
  | media
  | meteredTime
  | payAmount
  | percentage
  | product
  | purpose
  | recipient
  | relativePosition
  | relativeSize
  | relativeSpatial
  | relativeTime
  | resolution
  | spatial
  | systemDevice
  | timeInterval
  | unitOfCount
  | version
  | virtualLocation
  deriving DecidableEq, Repr

def LeftOperand.term : LeftOperand → String
  | .dateTime => "dateTime"
  | .delayPeriod => "delayPeriod"
  | .deliveryChannel => "deliveryChannel"
  | .elapsedTime => "elapsedTime"
  | .event => "event"
  | .industry => "industry"
  | .language => "language"
  | .media => "media"
  | .meteredTime => "meteredTime"
  | .payAmount => "payAmount"
  | .percentage => "percentage"
  | .product => "product"
  | .purpose => "purpose"
  | .recipient => "recipient"
  | .relativePosition => "relativePosition"
  | .relativeSize => "relativeSize"
  | .relativeSpatial => "relativeSpatial"
  | .relativeTime => "relativeTime"
  | .resolution => "resolution"
  | .spatial => "spatial"
  | .systemDevice => "systemDevice"
  | .timeInterval => "timeInterval"
  | .unitOfCount => "unitOfCount"
  | .version => "version"
  | .virtualLocation => "virtualLocation"

instance : Vocabulary LeftOperand where
  label := "left operand"
  values :=
    [.dateTime, .delayPeriod, .deliveryChannel, .elapsedTime, .event, .industry, .language,
      .media, .meteredTime, .payAmount, .percentage, .product, .purpose, .recipient,
      .relativePosition, .relativeSize, .relativeSpatial, .relativeTime, .resolution, .spatial,
      .systemDevice, .timeInterval, .unitOfCount, .version, .virtualLocation]
  term := LeftOperand.term
  complete a := by cases a <;> decide
  distinct := by decide
  written := by decide

end RightsPolicy
