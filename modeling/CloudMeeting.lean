import CloudMeeting.Lib.Framing
import CloudMeeting.Lib.Run
import CloudMeeting.Wire.Layout
import CloudMeeting.Server.Guarantees
import CloudMeeting.Server.RoomIds
import CloudMeeting.Server.Writing
import CloudMeeting.Server.OneAddress
import CloudMeeting.Server.ByteQueue
import CloudMeeting.Server.Refusal
import CloudMeeting.Server.Storage
import CloudMeeting.Server.Dialogue
import CloudMeeting.Conference.History
import CloudMeeting.Conference.Introduction
import CloudMeeting.Conference.Presence
import CloudMeeting.Client.Pieces
import CloudMeeting.Link.Uplink
import CloudMeeting.Link.Downlink
import CloudMeeting.Client.Widget
import CloudMeeting.Link.Media
import CloudMeeting.Link.Joining
import CloudMeeting.Link.Notices
import CloudMeeting.Link.Conversation
import CloudMeeting.Link.Speech
import CloudMeeting.Link.Sight
import CloudMeeting.Link.Correspondence
import CloudMeeting.Client.Threads
import CloudMeeting.Client.Settling
import CloudMeeting.Client.Leftovers
import CloudMeeting.Client.Verdicts
import CloudMeeting.Client.TextOrder
import CloudMeeting.Client.Buckets
import CloudMeeting.Client.Reconnect
import CloudMeeting.Client.RoomNumber
import CloudMeeting.Client.Screen
import CloudMeeting.Client.Chat
import CloudMeeting.Client.Address
import CloudMeeting.Client.FramelessWindow
import CloudMeeting.Client.Mentions
import CloudMeeting.Client.Alerts
import CloudMeeting.Client.Devices
import CloudMeeting.Client.Pictures
import CloudMeeting.Client.CloseCamera
import CloudMeeting.Auth.Audit
import CloudMeeting.Auth.Dialog
import CloudMeeting.Auth.Sessions
import CloudMeeting.Audio.Conversion
import CloudMeeting.Audio.Playback
import CloudMeeting.Audio.Reception
import CloudMeeting.Audio.Shutdown
