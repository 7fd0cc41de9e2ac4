import BlueFerry.Obex.Header
import BlueFerry.Obex.RoundTrip
import BlueFerry.Recovery.Safety
import BlueFerry.Ancs.Answers
import BlueFerry.Ancs.Origins
import BlueFerry.Threads.Replies
import BlueFerry.Dbus.Quotas
import BlueFerry.Profiles.Progress
import BlueFerry.Bearers.Payments
import BlueFerry.Proximity.Pause
import BlueFerry.Tether.Settled
import BlueFerry.Obex.ReadReceipts
import BlueFerry.Threads.Index
import BlueFerry.Threads.Direct
import BlueFerry.Notifications.Listing
import BlueFerry.Notifications.MissedCalls
import BlueFerry.Otp.Runs
import BlueFerry.CallHistory.Cleared
import BlueFerry.History.Cached
import BlueFerry.Obex.Published
import BlueFerry.Plugins.Prefs
import BlueFerry.Plugins.Surfaces
import BlueFerry.Plugins.SettingsLogin
import BlueFerry.Plugins.PopupsRuns
import BlueFerry.Battery.Discovery
import BlueFerry.AudioRoute.Watched
import BlueFerry.Threads.Keypad
import BlueFerry.Threads.Response
import BlueFerry.Groups.RouteStore
import BlueFerry.History.Pruned
import BlueFerry.Contacts.Photos
import BlueFerry.Contacts.SafeDetails
import BlueFerry.Tether.Deactivated
import BlueFerry.Tether.Withdrawn
import BlueFerry.Threads.Warnings
import BlueFerry.History.Rows
import BlueFerry.Vcard.Resync
import BlueFerry.Contacts.Search
import BlueFerry.Backfill.Handles
import BlueFerry.Storage.Following
import BlueFerry.Calls.Tones
import BlueFerry.LocalEnv
import BlueFerry.Obex.Transfer
import BlueFerry.Text.Spans
import BlueFerry.Profiles.Resets
import BlueFerry.Media.NameClaim
import BlueFerry.Groups.Spellings
import BlueFerry.Threads.Shown
