import OxideSfu.RtpDuplicateSuppression
import OxideSfu.RtpTimestampContinuity
import OxideSfu.DescriptorPolicyChanges
import OxideSfu.SenderReportTimeline
import OxideSfu.RetransmissionReplay
import OxideSfu.PolicyUpdates
import OxideSfu.KeyframeRequests
import OxideSfu.ParticipantVersions
import OxideSfu.ExplicitUnsubscribe
import OxideSfu.ReaderLeases
import OxideSfu.TrackSettingsInterleaving
import OxideSfu.PublishRestrictions
import OxideSfu.Revocations
import OxideSfu.RelayedJoins
import OxideSfu.HiddenParticipants
import OxideSfu.DataTrackHandles
import OxideSfu.DataTrackRouting
import OxideSfu.DataTrackPermissions
import OxideSfu.DataTrackUnsubscribe
import OxideSfu.ServiceRpc
import OxideSfu.UpdateVersionOrder
import OxideSfu.JoinAnnouncements
import OxideSfu.SessionSuccessors
import OxideSfu.RoomCapacity
import OxideSfu.RoomExpiry
import OxideSfu.RoomLocks
import OxideSfu.RelayedJoinFallback
import OxideSfu.RelayedSessions
import OxideSfu.NodeAgreement
import OxideSfu.WebhookDelivery
import OxideSfu.VideoBatches
import OxideSfu.BitrateAllocation
import OxideSfu.FrameRateGate
import OxideSfu.StickySelection
import OxideSfu.AggregateQuality
import OxideSfu.EgressStreams
import OxideSfu.DataTrackPackets
import OxideSfu.TurnCredentials
import OxideSfu.SipTrunks
import OxideSfu.Vp8PictureIds
import OxideSfu.RelayedTerminations
